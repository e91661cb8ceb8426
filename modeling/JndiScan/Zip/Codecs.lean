/-
The decompressors that archives need beside inflation. They are a parameter, which stands for what
a system brings; unless something else is said they are the ones given here.
-/
import JndiScan.Bzip2.Decompress
import JndiScan.Lzma.Decompress

namespace JndiScan.Zip

/-- Decompressors. Each gives what data unpack to and tells whether they reach their end, or says
what is wrong with them. LZMA data come with their properties. -/
structure Codecs where
  bzip2 : Bytes → Except Text (Bytes × Bool) := fun data =>
    (Bzip2.decompress data).mapError Bzip2.Fault.message
  lzma : Bytes → Bytes → Except Text (Bytes × Bool) := fun properties data =>
    (Lzma.decompress properties data).mapError Lzma.Fault.message

end JndiScan.Zip
