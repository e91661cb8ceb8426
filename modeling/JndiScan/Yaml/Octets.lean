/-
Octets written in base 64. Everything that is not one of the sixty-four signs is passed over, and
padding ends the text where it completes a group.
-/
import JndiScan.Bytes
import JndiScan.Text.Basic

namespace JndiScan.Yaml.Octets

/-- The value of a sign. -/
def sign? (c : CodePoint) : Option Nat :=
  let n := c.val
  if 0x41 ≤ n && n ≤ 0x5A then some (n - 0x41)
  else if 0x61 ≤ n && n ≤ 0x7A then some (n - 0x61 + 26)
  else if 0x30 ≤ n && n ≤ 0x39 then some (n - 0x30 + 52)
  else if n = 0x2B then some 62
  else if n = 0x2F then some 63
  else none

/-- The whole octets of a group of fewer than four signs. -/
def partialGroup : List Nat → Bytes
  | [a, b] => [(a * 4 + b / 16).toUInt8]
  | [a, b, c] => [(a * 4 + b / 16).toUInt8, (b * 16 + c / 4).toUInt8]
  | _ => []

/-- The octets of a text after `done`, which is held last first. `group` are the signs of the group
that is not complete, in order, and `pads` the padding met since the last of them. -/
def read? (done : Bytes) (group : List Nat) (pads : Nat) : Text → Option Bytes
  | [] => if group.isEmpty then some done.reverse else none
  | ch :: rest =>
    if ch = .ofChar '=' then
      if 2 ≤ group.length && 4 ≤ group.length + pads + 1 then
        some (done.reverse ++ partialGroup group)
      else read? done group (if 2 ≤ group.length then pads + 1 else pads) rest
    else
      match sign? ch, group with
      | none, _ => read? done group pads rest
      | some d, [a, b, c] =>
        let whole : Bytes :=
          [(c * 64 + d).toUInt8, (b * 16 + c / 4).toUInt8, (a * 4 + b / 16).toUInt8]
        read? (whole ++ done) [] 0 rest
      | some d, _ => read? done (group ++ [d]) 0 rest

/-- The octets that a text writes; a text outside ASCII writes none. -/
def ofText? (t : Text) : Option Bytes :=
  if t.any fun c => c.val ≥ 0x80 then none else read? [] [] 0 t

end JndiScan.Yaml.Octets
