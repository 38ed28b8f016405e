import Mathlib.Data.List.AList
import Mathlib.Data.List.Chain
import Tangerine.Types

/-!
# The compaction-chain tip and the DKG store of `MemBackedDB`

Besides its blocks, `db.MemBackedDB` keeps the tip of the compaction chain, the DKG private
key of each round and the DKG protocol state, each behind its own lock. Every one of their
methods holds its lock for its whole body, so concurrent calls act one after another in the
order they take the lock, and a run is a sequence of calls (`runFrom`).

`PutCompactionChainTipInfo` accepts a tip only one above the current one: in any run the
accepted tips climb by one from the tip the run started at, wrapping at `2 ^ 64`, and the last
of them is the tip (`compactionChainTip_run`).

`PutDKGPrivateKey` refuses a key only when the round's stored key is for the same reset. A key
for any other reset, older or newer, replaces the stored one. After any run, the key of a
round is the last one accepted for it. No two keys accepted in a row for one round share a
reset, and `GetDKGPrivateKey` finds a key exactly for the reset of the round's last key
(`dkgStore_run`).
-/

namespace MemBackedDB

/-- The errors of these calls, the error values of package `db`. -/
inductive MetaError
  /-- `ErrInvalidCompactionChainTipHeight`. -/
  | invalidCompactionChainTipHeight
  /-- `ErrDKGPrivateKeyExists`. -/
  | dkgPrivateKeyExists
  /-- `ErrDKGPrivateKeyDoesNotExist`. -/
  | dkgPrivateKeyDoesNotExist
  /-- `ErrDKGProtocolDoesNotExist`. -/
  | dkgProtocolDoesNotExist
deriving DecidableEq, Repr

/-- `dkgPrivateKey`: a round's private key and the DKG reset it was made in. -/
structure DKGPrivateKey (κ : Type) where
  /-- `PK`. -/
  pk : κ
  /-- `Reset`. -/
  reset : UInt64
deriving DecidableEq

/-- The fields of `MemBackedDB` behind `compactionChainTipLock`, `dkgPrivateKeysLock` and
`dkgProtocolLock`; `κ` is `dkg.PrivateKey` and `π` is `DKGProtocolInfo`. -/
structure Meta (κ π : Type) where
  /-- `compactionChainTipHash`. -/
  compactionChainTipHash : Hash
  /-- `compactionChainTipHeight`. -/
  compactionChainTipHeight : UInt64
  /-- `dkgPrivateKeys`, by round. -/
  dkgPrivateKeys : AList fun _ : UInt64 => DKGPrivateKey κ
  /-- `dkgProtocolInfo`, `none` for `nil`. -/
  dkgProtocolInfo : Option π

variable {κ π : Type}

namespace Meta

/-- What `NewMemBackedDB` leaves: the zero tip, no key, no protocol. -/
def new : Meta κ π := ⟨Hash.zero, 0, ∅, none⟩

/-- `PutCompactionChainTipInfo(blockHash, height)`. -/
def putCompactionChainTipInfo (m : Meta κ π) (blockHash : Hash) (height : UInt64) :
    Meta κ π × Option MetaError :=
  if m.compactionChainTipHeight + 1 ≠ height then (m, some .invalidCompactionChainTipHeight)
  else ({ m with compactionChainTipHeight := height, compactionChainTipHash := blockHash }, none)

/-- `GetCompactionChainTipInfo()`. -/
def getCompactionChainTipInfo (m : Meta κ π) : Hash × UInt64 :=
  (m.compactionChainTipHash, m.compactionChainTipHeight)

/-- `GetDKGPrivateKey(round, reset)`. -/
def getDKGPrivateKey (m : Meta κ π) (round reset : UInt64) : Except MetaError κ :=
  match m.dkgPrivateKeys.lookup round with
  | some prv => if prv.reset == reset then .ok prv.pk else .error .dkgPrivateKeyDoesNotExist
  | none => .error .dkgPrivateKeyDoesNotExist

/-- `PutDKGPrivateKey(round, reset, prv)`. -/
def putDKGPrivateKey (m : Meta κ π) (round reset : UInt64) (prv : κ) :
    Meta κ π × Option MetaError :=
  if (m.dkgPrivateKeys.lookup round).any (·.reset == reset) then
    (m, some .dkgPrivateKeyExists)
  else ({ m with dkgPrivateKeys := m.dkgPrivateKeys.insert round ⟨prv, reset⟩ }, none)

/-- `GetDKGProtocol()`. -/
def getDKGProtocol (m : Meta κ π) : Except MetaError π :=
  match m.dkgProtocolInfo with
  | some info => .ok info
  | none => .error .dkgProtocolDoesNotExist

/-- `PutOrUpdateDKGProtocol(dkgProtocol)`, which always returns `nil`. -/
def putOrUpdateDKGProtocol (m : Meta κ π) (dkgProtocol : π) : Meta κ π × Option MetaError :=
  ({ m with dkgProtocolInfo := some dkgProtocol }, none)

end Meta

/-- **A call that writes** one of these fields. -/
inductive MetaCall (κ π : Type)
  /-- `PutCompactionChainTipInfo(blockHash, height)`. -/
  | putCompactionChainTipInfo (blockHash : Hash) (height : UInt64)
  /-- `PutDKGPrivateKey(round, reset, prv)`. -/
  | putDKGPrivateKey (round reset : UInt64) (prv : κ)
  /-- `PutOrUpdateDKGProtocol(dkgProtocol)`. -/
  | putOrUpdateDKGProtocol (dkgProtocol : π)

/-- One call, under its lock. -/
def MetaCall.run : MetaCall κ π → Meta κ π → Meta κ π × Option MetaError
  | .putCompactionChainTipInfo h n, m => m.putCompactionChainTipInfo h n
  | .putDKGPrivateKey r s k, m => m.putDKGPrivateKey r s k
  | .putOrUpdateDKGProtocol p, m => m.putOrUpdateDKGProtocol p

/-- **A run**: the calls one after another from `m`, the state they leave and what each
returned. -/
def runFrom : List (MetaCall κ π) → Meta κ π → Meta κ π × List (Option MetaError)
  | [], m => (m, [])
  | c :: cs, m => ((runFrom cs (c.run m).1).1, (c.run m).2 :: (runFrom cs (c.run m).1).2)

/-- The tips that the calls of a run put and that returned `nil`, in order. -/
def acceptedTips (calls : List (MetaCall κ π)) (errs : List (Option MetaError)) :
    List (Hash × UInt64) :=
  (calls.zip errs).filterMap fun
    | (.putCompactionChainTipInfo h n, none) => some (h, n)
    | _ => none

/-- The keys for `round` that the calls of a run put and that returned `nil`, in order. -/
def acceptedKeys (round : UInt64) (calls : List (MetaCall κ π))
    (errs : List (Option MetaError)) : List (DKGPrivateKey κ) :=
  (calls.zip errs).filterMap fun
    | (.putDKGPrivateKey r s k, none) => if r = round then some ⟨k, s⟩ else none
    | _ => none

/-- The protocol states that the calls of a run put, in order. -/
def acceptedProtocols (calls : List (MetaCall κ π)) : List π :=
  calls.filterMap fun
    | .putOrUpdateDKGProtocol p => some p
    | _ => none

/-! ## One call -/

namespace Meta

variable (m : Meta κ π)

@[simp] theorem putDKGPrivateKey_tip (r s : UInt64) (k : κ) :
    (m.putDKGPrivateKey r s k).1.getCompactionChainTipInfo = m.getCompactionChainTipInfo := by
  unfold putDKGPrivateKey; split <;> rfl

@[simp] theorem putCompactionChainTipInfo_dkgPrivateKeys (h : Hash) (n : UInt64) :
    (m.putCompactionChainTipInfo h n).1.dkgPrivateKeys = m.dkgPrivateKeys := by
  unfold putCompactionChainTipInfo; split <;> rfl

@[simp] theorem putCompactionChainTipInfo_dkgProtocolInfo (h : Hash) (n : UInt64) :
    (m.putCompactionChainTipInfo h n).1.dkgProtocolInfo = m.dkgProtocolInfo := by
  unfold putCompactionChainTipInfo; split <;> rfl

@[simp] theorem putDKGPrivateKey_dkgProtocolInfo (r s : UInt64) (k : κ) :
    (m.putDKGPrivateKey r s k).1.dkgProtocolInfo = m.dkgProtocolInfo := by
  unfold putDKGPrivateKey; split <;> rfl

/-- **A tip is accepted exactly when it is one above the current tip**, and then it is the
tip; refused, it leaves the state as it was. -/
theorem putCompactionChainTipInfo_eq (h : Hash) (n : UInt64) :
    m.putCompactionChainTipInfo h n =
      if m.compactionChainTipHeight + 1 = n then
        ({ m with compactionChainTipHeight := n, compactionChainTipHash := h }, none)
      else (m, some .invalidCompactionChainTipHeight) := by
  unfold putCompactionChainTipInfo
  by_cases hn : m.compactionChainTipHeight + 1 = n <;> simp [hn]

/-- **A key is refused exactly when the round's stored key is for the same reset**; accepted,
it becomes the round's key, and the other rounds keep theirs. -/
theorem putDKGPrivateKey_eq (r s : UInt64) (k : κ) :
    m.putDKGPrivateKey r s k =
      if ∃ prv, m.dkgPrivateKeys.lookup r = some prv ∧ prv.reset = s then
        (m, some .dkgPrivateKeyExists)
      else ({ m with dkgPrivateKeys := m.dkgPrivateKeys.insert r ⟨k, s⟩ }, none) := by
  unfold putDKGPrivateKey
  congr 1
  cases m.dkgPrivateKeys.lookup r <;> simp

end Meta

/-! ## Whole runs -/

@[simp] theorem runFrom_nil (m : Meta κ π) : runFrom [] m = (m, []) := rfl

@[simp] theorem runFrom_cons (c : MetaCall κ π) (cs : List (MetaCall κ π)) (m : Meta κ π) :
    runFrom (c :: cs) m = ((runFrom cs (c.run m).1).1, (c.run m).2 :: (runFrom cs (c.run m).1).2) :=
  rfl

@[simp] theorem acceptedTips_tip_none (h : Hash) (n : UInt64) (cs : List (MetaCall κ π)) (es) :
    acceptedTips (.putCompactionChainTipInfo h n :: cs) (none :: es) =
      (h, n) :: acceptedTips cs es := rfl

@[simp] theorem acceptedTips_tip_some (h : Hash) (n : UInt64) (cs : List (MetaCall κ π)) (e es) :
    acceptedTips (.putCompactionChainTipInfo h n :: cs) (some e :: es) = acceptedTips cs es :=
  rfl

@[simp] theorem acceptedTips_key (r s : UInt64) (k : κ) (cs : List (MetaCall κ π)) (e es) :
    acceptedTips (.putDKGPrivateKey r s k :: cs) (e :: es) = acceptedTips cs es := rfl

@[simp] theorem acceptedTips_protocol (p : π) (cs : List (MetaCall κ π)) (e es) :
    acceptedTips (.putOrUpdateDKGProtocol p :: cs) (e :: es) = acceptedTips cs es := rfl

/-- **The accepted tips climb by one.** In any run, each accepted tip is one above the one
before it, the first one above the tip the run started from, wrapping at `2 ^ 64`; the last
accepted is the tip the run leaves. -/
theorem compactionChainTip_run (calls : List (MetaCall κ π)) (m : Meta κ π) :
    List.Chain (fun a b => b.2 = a.2 + 1) m.getCompactionChainTipInfo
        (acceptedTips calls (runFrom calls m).2) ∧
      (runFrom calls m).1.getCompactionChainTipInfo =
        (acceptedTips calls (runFrom calls m).2).getLast?.getD m.getCompactionChainTipInfo := by
  induction calls generalizing m with
  | nil => simp [acceptedTips]
  | cons c cs ih =>
    cases c with
    | putCompactionChainTipInfo h n =>
      by_cases hn : m.compactionChainTipHeight + 1 = n
      · obtain ⟨ih₁, ih₂⟩ :=
          ih { m with compactionChainTipHeight := n, compactionChainTipHash := h }
        simp only [runFrom_cons, MetaCall.run, Meta.putCompactionChainTipInfo_eq, if_pos hn,
          acceptedTips_tip_none, List.chain_cons, List.getLast?_cons] at ih₁ ih₂ ⊢
        exact ⟨⟨hn.symm, ih₁⟩, ih₂⟩
      · simpa [MetaCall.run, Meta.putCompactionChainTipInfo_eq, hn] using ih m
    | putDKGPrivateKey r s k => simpa [MetaCall.run] using ih (m.putDKGPrivateKey r s k).1
    | putOrUpdateDKGProtocol p => simpa [MetaCall.run] using ih (m.putOrUpdateDKGProtocol p).1

example : (runFrom [.putCompactionChainTipInfo Hash.zero 1, .putCompactionChainTipInfo Hash.zero 3,
    .putCompactionChainTipInfo Hash.zero 2] (Meta.new : Meta ℕ Unit)).2 =
      [none, some .invalidCompactionChainTipHeight, none] := by
  decide

@[simp] theorem acceptedKeys_key_none (round r s : UInt64) (k : κ) (cs : List (MetaCall κ π))
    (es) : acceptedKeys round (.putDKGPrivateKey r s k :: cs) (none :: es) =
      if r = round then ⟨k, s⟩ :: acceptedKeys round cs es else acceptedKeys round cs es := by
  by_cases h : r = round <;> simp [acceptedKeys, h]

@[simp] theorem acceptedKeys_key_some (round r s : UInt64) (k : κ) (cs : List (MetaCall κ π))
    (e es) : acceptedKeys round (.putDKGPrivateKey r s k :: cs) (some e :: es) =
      acceptedKeys round cs es := rfl

@[simp] theorem acceptedKeys_tip (round : UInt64) (h : Hash) (n : UInt64)
    (cs : List (MetaCall κ π)) (e es) :
    acceptedKeys round (.putCompactionChainTipInfo h n :: cs) (e :: es) =
      acceptedKeys round cs es := rfl

@[simp] theorem acceptedKeys_protocol (round : UInt64) (p : π) (cs : List (MetaCall κ π))
    (e es) : acceptedKeys round (.putOrUpdateDKGProtocol p :: cs) (e :: es) =
      acceptedKeys round cs es := rfl

/-- **`GetDKGPrivateKey` finds exactly the stored key**, when it is for the reset asked. -/
theorem Meta.getDKGPrivateKey_eq_ok (m : Meta κ π) (round reset : UInt64) (k : κ) :
    m.getDKGPrivateKey round reset = .ok k ↔ m.dkgPrivateKeys.lookup round = some ⟨k, reset⟩ := by
  unfold getDKGPrivateKey
  split
  · next prv hprv =>
    obtain ⟨pk, s⟩ := prv
    by_cases hs : s = reset
    · subst hs; simp [hprv]
    · simp [hprv, hs]
  · next hnone => simp [hnone]

/-- **The key of a round over a run**: the history of the round's keys, the stored one and
then those accepted, never has two keys in a row for one reset, and its last key is the one
the run leaves. -/
theorem lookup_runFrom (round : UInt64) (calls : List (MetaCall κ π)) (m : Meta κ π) :
    List.Chain' (fun a b => a.reset ≠ b.reset)
        ((m.dkgPrivateKeys.lookup round).toList ++ acceptedKeys round calls (runFrom calls m).2) ∧
      (runFrom calls m).1.dkgPrivateKeys.lookup round =
        ((m.dkgPrivateKeys.lookup round).toList ++
          acceptedKeys round calls (runFrom calls m).2).getLast? := by
  induction calls generalizing m with
  | nil => cases h : m.dkgPrivateKeys.lookup round <;> simp [acceptedKeys, h]
  | cons c cs ih =>
    cases c with
    | putDKGPrivateKey r s k =>
      by_cases hex : ∃ prv, m.dkgPrivateKeys.lookup r = some prv ∧ prv.reset = s
      · simpa [MetaCall.run, Meta.putDKGPrivateKey_eq, hex] using ih m
      obtain ⟨ih₁, ih₂⟩ := ih { m with dkgPrivateKeys := m.dkgPrivateKeys.insert r ⟨k, s⟩ }
      simp only [runFrom_cons, MetaCall.run, Meta.putDKGPrivateKey_eq, if_neg hex,
        acceptedKeys_key_none] at ih₁ ih₂ ⊢
      by_cases hr : r = round
      · subst hr
        rw [AList.lookup_insert] at ih₁ ih₂
        simp only [if_true]
        cases hp : m.dkgPrivateKeys.lookup r with
        | none => exact ⟨ih₁, ih₂⟩
        | some p =>
          have hps : p.reset ≠ s := fun h => hex ⟨p, hp, h⟩
          simp only [Option.toList_some, List.singleton_append, List.chain'_cons,
            List.getLast?_cons_cons] at ih₁ ih₂ ⊢
          exact ⟨⟨hps, ih₁⟩, ih₂⟩
      · rw [AList.lookup_insert_ne (Ne.symm hr)] at ih₁ ih₂
        simp only [hr, if_false]
        exact ⟨ih₁, ih₂⟩
    | putCompactionChainTipInfo h n =>
      simpa [MetaCall.run] using ih (m.putCompactionChainTipInfo h n).1
    | putOrUpdateDKGProtocol p => simpa [MetaCall.run] using ih (m.putOrUpdateDKGProtocol p).1

@[simp] theorem acceptedProtocols_protocol (p : π) (cs : List (MetaCall κ π)) :
    acceptedProtocols (.putOrUpdateDKGProtocol p :: cs) = p :: acceptedProtocols cs := rfl

@[simp] theorem acceptedProtocols_tip (h : Hash) (n : UInt64) (cs : List (MetaCall κ π)) :
    acceptedProtocols (.putCompactionChainTipInfo h n :: cs) = acceptedProtocols cs := rfl

@[simp] theorem acceptedProtocols_key (r s : UInt64) (k : κ) (cs : List (MetaCall κ π)) :
    acceptedProtocols (.putDKGPrivateKey r s k :: cs) = acceptedProtocols cs := rfl

/-- **The protocol state over a run** is the last one put, or the one the run started with. -/
theorem dkgProtocolInfo_runFrom (calls : List (MetaCall κ π)) (m : Meta κ π) :
    (runFrom calls m).1.dkgProtocolInfo =
      (m.dkgProtocolInfo.toList ++ acceptedProtocols calls).getLast? := by
  induction calls generalizing m with
  | nil => cases h : m.dkgProtocolInfo <;> simp [acceptedProtocols, h]
  | cons c cs ih =>
    cases c with
    | putOrUpdateDKGProtocol p =>
      simp [MetaCall.run, Meta.putOrUpdateDKGProtocol, ih, List.getLast?_cons]
    | putCompactionChainTipInfo h n =>
      simpa [MetaCall.run] using ih (m.putCompactionChainTipInfo h n).1
    | putDKGPrivateKey r s k => simpa [MetaCall.run] using ih (m.putDKGPrivateKey r s k).1

/-- **What the DKG store answers after any run.** For each round, the history of its keys,
the one the run started with and then those accepted, never has two keys in a row for one
reset, and `GetDKGPrivateKey` returns a key exactly when it is the last of that history and
for the reset asked; a key for an older reset replaces a newer one. `GetDKGProtocol` returns
the last protocol state put, or the one the run started with. -/
theorem dkgStore_run (calls : List (MetaCall κ π)) (m : Meta κ π) (round : UInt64) :
    List.Chain' (fun a b => a.reset ≠ b.reset)
        ((m.dkgPrivateKeys.lookup round).toList ++ acceptedKeys round calls (runFrom calls m).2) ∧
      (∀ reset k, (runFrom calls m).1.getDKGPrivateKey round reset = .ok k ↔
        ((m.dkgPrivateKeys.lookup round).toList ++
          acceptedKeys round calls (runFrom calls m).2).getLast? = some ⟨k, reset⟩) ∧
      (∀ info, (runFrom calls m).1.getDKGProtocol = .ok info ↔
        (m.dkgProtocolInfo.toList ++ acceptedProtocols calls).getLast? = some info) := by
  obtain ⟨hchain, hlookup⟩ := lookup_runFrom round calls m
  refine ⟨hchain, fun reset k => by rw [Meta.getDKGPrivateKey_eq_ok, hlookup], fun info => ?_⟩
  rw [← dkgProtocolInfo_runFrom, Meta.getDKGProtocol]
  split <;> simp_all

example : ((runFrom [.putDKGPrivateKey 7 1 10, .putDKGPrivateKey 7 2 20, .putDKGPrivateKey 7 1 30]
    (Meta.new : Meta ℕ Unit)).1.getDKGPrivateKey 7 1).toOption = some 30 := by
  decide

end MemBackedDB
