/-
The pool of everything that a walk finds.
-/
import JndiScan.Walk.Roots

namespace JndiScan.Pool

/-- Takes an occurrence into the pool, and tells whether its class is new. -/
def takeIn (pool : Pool) (o : Occurrence) (console : Console) : Pool × Console :=
  let (isNew, pool) := pool.accept o
  let what : Text := if isNew then "added" else "merged"
  (pool, console.debug ("class " ++ what ++ " name=" ++ o.definition.name ++ " location="
    ++ o.place.text))

/-- The pool of the classes below a path. -/
def load (d : Decoding) (l : Walk.Limits) (path : Text) (tally : Walk.Tally) (session : Session) :
    Walk.Outcome Pool Session :=
  Walk.foldPath d l takeIn none {} path tally session

end JndiScan.Pool
