/-
The check of a pool against a signature, in two stages: is the class whose presence matters there,
and does a class of the vulnerable name declare the constructor of vulnerable releases?
-/
import JndiScan.Pool
import JndiScan.Signature

namespace JndiScan

/-- The answer of a check. -/
inductive Verdict
  | notPresent
  | patched
  | vulnerable
  deriving DecidableEq, Repr

/-- The label of a verdict. -/
def Verdict.label : Verdict → Text
  | notPresent => "NOT_PRESENT"
  | patched => "PATCHED"
  | vulnerable => "VULNERABLE"

/-- What a check found: the verdict, the last stage that was looked at, the classes whose presence
matters, the vulnerable classes with the constructors that make them so, and the places of the
vulnerable classes, each once. -/
structure CheckResult where
  verdict : Verdict
  stage : Nat
  lookups : List PoolEntry := []
  vulnerable : List (PoolEntry × List Member) := []
  places : List Provenance := []

namespace Signature

/-- Is a member the constructor of vulnerable releases? Its descriptor is compared exactly, so that
a constructor with further parameters is another one. -/
def matchesMember (s : Signature) (m : Member) : Bool :=
  m.kind == .constructor && m.name == s.constructorName
    && Access.hasAll m.accessFlags s.requiredAccess && m.descriptor == s.constructorDescriptor

/-- The members of a class that make it vulnerable. -/
def matchingMembers (s : Signature) (e : PoolEntry) : List Member :=
  e.definition.members.filter s.matchesMember

/-- The classes of the vulnerable name that have such members, with these. -/
def vulnerableClasses (s : Signature) (pool : Pool) : List (PoolEntry × List Member) :=
  ((pool.withSuffix s.vulnerableClass).map fun e => (e, s.matchingMembers e)).filter
    fun found => !found.2.isEmpty

end Signature

/-- The check of a pool. -/
def Pool.check (pool : Pool) (s : Signature := Signature.builtIn) : CheckResult :=
  let lookups := pool.withSuffix s.presenceClass
  if lookups.isEmpty then { verdict := .notPresent, stage := 1 }
  else
    let found := s.vulnerableClasses pool
    if found.isEmpty then { verdict := .patched, stage := 2, lookups }
    else
      { verdict := .vulnerable, stage := 2, lookups, vulnerable := found
        places := (found.flatMap fun f => f.1.places).eraseDups }

end JndiScan
