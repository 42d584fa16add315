import CircuitNetlist.Fault

/-!
# Name tables

A name table says who holds each netlist name. A name has one holder for good: claiming it again
changes nothing for its holder and is a fault for anyone else, which leaves the table as it is.
-/
namespace CircuitNetlist

structure NameTable where
  space : NameSpace
  owners : List (String × NameOwner) := []
deriving DecidableEq, Repr

namespace NameTable

def owner? (t : NameTable) (name : String) : Option NameOwner :=
  t.owners.lookup name

/-- The fault of two holders of one name. -/
def conflict (t : NameTable) (name : String) (first second : NameOwner) : Cause :=
  match first, second with
  | .internal _, .internal _ => .duplicateModule name
  | _, _ => .nameConflict t.space name first second

/-- Gives the name to an owner, unless another one holds it. The table is the one left, also where
the name is refused. -/
def claim (t : NameTable) (name : String) (owner : NameOwner) : Except Cause Unit × NameTable :=
  match t.owner? name with
  | none => (.ok (), { t with owners := (name, owner) :: t.owners })
  | some holder => (if holder = owner then .ok () else .error (t.conflict name holder owner), t)

section Claims
variable {t after : NameTable} {name : String} {owner : NameOwner} {cause : Cause}

/-- Claiming a name again changes nothing. -/
theorem claim_of_owner (h : t.owner? name = some owner) : t.claim name owner = (.ok (), t) := by
  simp [claim, h]

/-- A refused claim leaves the table as it was. -/
theorem claim_unchanged (h : t.claim name owner = (.error cause, after)) : after = t := by
  unfold claim at h
  cases held : t.owner? name with
  | none => simp [held] at h
  | some holder =>
    simp only [held, Prod.mk.injEq] at h
    exact h.2.symm

/-- A claim fails only against another holder. -/
theorem claim_eq_error_iff :
    (t.claim name owner).1 = .error cause
      ↔ ∃ holder, t.owner? name = some holder ∧ holder ≠ owner
          ∧ cause = t.conflict name holder owner := by
  unfold claim
  cases h : t.owner? name with
  | none => simp
  | some holder => by_cases h' : holder = owner <;> grind

/-- After a claim the owner holds the name, and all other names are as before. -/
theorem owner?_of_claim (h : t.claim name owner = (.ok (), after)) (other : String) :
    after.owner? other = if other = name then some owner else t.owner? other := by
  unfold claim at h
  cases held : t.owner? name with
  | none =>
    simp only [held, Prod.mk.injEq, true_and] at h
    subst h
    by_cases h' : other = name
    · simp [owner?, h']
    · simp [owner?, List.lookup_cons, beq_false_of_ne h', h']
  | some holder =>
    by_cases h' : holder = owner
    · simp only [held, h', ↓reduceIte, Prod.mk.injEq, true_and] at h
      subst h
      by_cases h'' : other = name <;> simp [h'', held, h']
    · simp [held, h'] at h

end Claims

end NameTable

end CircuitNetlist
