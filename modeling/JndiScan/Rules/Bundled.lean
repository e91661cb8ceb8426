/-
The rules that a scan uses when none are given.
-/
import JndiScan.Bytes
import JndiScan.Text.Utf8

namespace JndiScan.Rules

/-- The document of the rules. -/
def bundled : Text :=
  "# Structural signature of log4j-core releases affected by CVE-2021-44228.
#
# Removing JndiLookup is the documented workaround, so the check only goes on
# when that class is present. Releases before 2.15.0 declare
#   private JndiManager(String name, javax.naming.Context context)
# which later releases replaced.
log4shell:
  id: LOG4SHELL_CVE_2021_44228
  cve: CVE-2021-44228
  title: \"log4j < 2.15.0 vulnerable to CVE-2021-44228\"
  presence_class: org/apache/logging/log4j/core/lookup/JndiLookup
  vulnerable_class: org/apache/logging/log4j/core/net/JndiManager
  constructor:
    name: \"<init>\"
    descriptor: \"(Ljava/lang/String;Ljavax/naming/Context;)V\"
    access: [private]
  recommendation: \"Upgrade log4j-core to 2.17.1 or later, or remove org/apache/logging/log4j/core/lookup/JndiLookup.class from the classpath.\"
  references:
    - https://logging.apache.org/log4j/2.x/security.html
    - https://www.kb.cert.org/vuls/id/930724#workarounds
"

/-- The octets of the rules. -/
def bundledOctets : Bytes := bundled.toUtf8

end JndiScan.Rules
