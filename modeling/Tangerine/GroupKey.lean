import Mathlib.Algebra.BigOperators.Group.List

/-!
# Recovering the DKG group public key

`dkg.RecoverGroupPublicKey` builds the public key of a DKG group from the participants' public
key shares: each participant's master public key lists the commitments to the coefficients of
its secret polynomial, and the group key is the sum of the constant terms. The loop walks the
shares in the order given, starting from `nil`, copying the first constant term and adding the
next ones to the copy (`pub.publicKey.Add(&pk0)`).

The BLS group is a parameter `G`: `bls.PublicKey.Add` is its addition, an additive commutative
monoid. A share is the list its loop reads, `masterPublicKey`, and `none` stands for a `nil`
share.

## What is proved

The loop computes the sum of the constant terms, `nil` for no share, and panics exactly when a
share is `nil` or has no commitment (`recoverGroupPublicKey_eq`); so the group key does not
depend on the order the shares come in (`recoverGroupPublicKey_spec`).
-/

namespace DKG

variable {G : Type}

/-- **One pass of `RecoverGroupPublicKey`'s loop**: `pub` so far and the next share. `none` is a
panic: a `nil` share, or an empty `masterPublicKey` (index `0` out of range). -/
def recoverStep [Add G] (pub : Option G) (pubShare : Option (List G)) : Option (Option G) := do
  let masterPublicKey ← pubShare
  let pk0 ← masterPublicKey.head?
  pure <| match pub with
    | none => some pk0
    | some p => some (p + pk0)

/-- **`RecoverGroupPublicKey(pubShares)`**: `some none` is a `nil` key, `none` a panic. -/
def recoverGroupPublicKey [Add G] (pubShares : List (Option (List G))) : Option (Option G) :=
  pubShares.foldlM recoverStep none

/-- The constant term of a share, if it has one. -/
def constantTerm (pubShare : Option (List G)) : Option G :=
  pubShare.bind List.head?

section Sum

variable [AddMonoid G]

/-- What the loop has once it has added `pks` to `pub`. -/
def addAll (pub : Option G) (pks : List G) : Option G :=
  match pub, pks with
  | none, [] => none
  | none, pk :: pks => some (pk + pks.sum)
  | some p, pks => some (p + pks.sum)

/-- **The loop from any point.** From `pub`, the loop adds every constant term that follows,
and panics as soon as one share lacks one. -/
theorem foldlM_recoverStep (pubShares : List (Option (List G))) (pub : Option G) :
    pubShares.foldlM recoverStep pub =
      if ∀ s ∈ pubShares, (constantTerm s).isSome then
        some (addAll pub (pubShares.filterMap constantTerm))
      else none := by
  induction pubShares generalizing pub with
  | nil => cases pub <;> simp [addAll]
  | cons s pubShares ih =>
    rcases s with _ | _ | ⟨pk, pks⟩
    · simp [recoverStep, constantTerm]
    · simp [recoverStep, constantTerm]
    · cases pub <;>
        simp [List.foldlM_cons, recoverStep, constantTerm, ih, addAll, add_assoc]

/-- **`RecoverGroupPublicKey` adds up the constant terms**: `nil` for no share, a panic exactly
when some share is `nil` or has no commitment. -/
theorem recoverGroupPublicKey_eq (pubShares : List (Option (List G))) :
    recoverGroupPublicKey pubShares =
      if ∀ s ∈ pubShares, (constantTerm s).isSome then
        some (if pubShares.isEmpty then none else some (pubShares.filterMap constantTerm).sum)
      else none := by
  rw [recoverGroupPublicKey, foldlM_recoverStep]
  by_cases hall : ∀ s ∈ pubShares, (constantTerm s).isSome
  · rw [if_pos hall, if_pos hall]
    rcases pubShares with _ | ⟨s, rest⟩
    · rfl
    · obtain ⟨pk, hpk⟩ := Option.isSome_iff_exists.1 (hall s (List.mem_cons_self _ _))
      simp [List.filterMap_cons, hpk, addAll]
  · rw [if_neg hall, if_neg hall]

end Sum

/-- **The group key does not depend on the order of the shares.** `RecoverGroupPublicKey`
returns the sum of the constant terms of the shares, `nil` when there is none, and panics
exactly when a share is `nil` or has no commitment; so any reordering of the shares gives the
same key, or the same panic. -/
theorem recoverGroupPublicKey_spec [AddCommMonoid G] (pubShares : List (Option (List G))) :
    recoverGroupPublicKey pubShares =
        (if ∀ s ∈ pubShares, (constantTerm s).isSome then
          some (if pubShares.isEmpty then none else some (pubShares.filterMap constantTerm).sum)
        else none) ∧
      ∀ pubShares' : List (Option (List G)), pubShares.Perm pubShares' →
        recoverGroupPublicKey pubShares' = recoverGroupPublicKey pubShares := by
  refine ⟨recoverGroupPublicKey_eq pubShares, fun pubShares' hp => ?_⟩
  have hall : (∀ s ∈ pubShares', (constantTerm s).isSome) ↔
      ∀ s ∈ pubShares, (constantTerm s).isSome :=
    forall_congr' fun s => imp_congr_left hp.mem_iff.symm
  have hnil : pubShares'.isEmpty = pubShares.isEmpty := by
    rw [Bool.eq_iff_iff, List.isEmpty_iff, List.isEmpty_iff, ← List.length_eq_zero,
      ← List.length_eq_zero, hp.length_eq]
  rw [recoverGroupPublicKey_eq, recoverGroupPublicKey_eq, hnil, (hp.filterMap constantTerm).sum_eq]
  exact if_congr hall rfl rfl

example :
    recoverGroupPublicKey [some [3, 10], some [4], some [5, 1, 2]] = some (some (12 : ℕ)) := by
  decide

end DKG
