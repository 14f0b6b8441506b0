import Mathlib.Logic.Function.Basic
import Mathlib.Order.Basic

set_option autoImplicit false

/-! # Typed key-value stores

A contract's storage maps every key of a tagged enumeration to a value whose type depends on the
key's tag, so a store is a dependent function `(k : κ) → Option (V k)`; two distinct keys never
share an entry. `TempStore` is the evictable kind: each entry carries the last ledger at which it
can still be read. -/

namespace ZkStellar

variable {κ : Type} {V : κ → Type}

/-- A store over keys `κ`, the value under key `k` having type `V k`. -/
def Store (V : κ → Type) := (k : κ) → Option (V k)

namespace Store

/-- The store without entries. -/
def empty : Store V := fun _ => none

def get (s : Store V) (k : κ) : Option (V k) := s k

def has (s : Store V) (k : κ) : Bool := (s.get k).isSome

@[ext] theorem ext {s t : Store V} (h : ∀ k, s.get k = t.get k) : s = t := funext h

@[simp] theorem get_empty (k : κ) : (empty : Store V).get k = none := rfl

variable [DecidableEq κ]

def set (s : Store V) (k : κ) (v : V k) : Store V := Function.update s k (some v)

def remove (s : Store V) (k : κ) : Store V := Function.update s k none

@[simp] theorem get_set_self (s : Store V) (k : κ) (v : V k) : (s.set k v).get k = some v :=
  Function.update_self ..

@[simp] theorem get_set_of_ne (s : Store V) {k k' : κ} (v : V k) (h : k' ≠ k) :
    (s.set k v).get k' = s.get k' :=
  Function.update_of_ne h ..

@[simp] theorem get_remove_self (s : Store V) (k : κ) : (s.remove k).get k = none :=
  Function.update_self ..

@[simp] theorem get_remove_of_ne (s : Store V) {k k' : κ} (h : k' ≠ k) :
    (s.remove k).get k' = s.get k' :=
  Function.update_of_ne h ..

end Store

/-! ## Evictable entries -/

/-- A value together with the last ledger at which it can be read. -/
structure TempEntry (α : Type) where
  val : α
  liveUntil : UInt32
deriving DecidableEq

/-- A store whose entries become unreadable after their live-until ledger. -/
abbrev TempStore (V : κ → Type) := Store (fun k => TempEntry (V k))

namespace TempStore

/-- The value under `k` if its entry is still live at `ledger`. -/
def read (s : TempStore V) (ledger : UInt32) (k : κ) : Option (V k) :=
  match Store.get s k with
  | some e => if ledger ≤ e.liveUntil then some e.val else none
  | none => none

variable [DecidableEq κ]

/-- Write `v`. A live entry keeps its lifetime; otherwise the entry is new and lives until
    `fresh`. -/
def write (s : TempStore V) (ledger fresh : UInt32) (k : κ) (v : V k) : TempStore V :=
  match Store.get s k with
  | some e => Store.set s k ⟨v, if ledger ≤ e.liveUntil then e.liveUntil else fresh⟩
  | none => Store.set s k ⟨v, fresh⟩

/-- Change the lifetime of the entry under `k`. -/
def retime (s : TempStore V) (k : κ) (f : UInt32 → UInt32) : TempStore V :=
  match Store.get s k with
  | some e => Store.set s k ⟨e.val, f e.liveUntil⟩
  | none => s

/-- The lifetime a write leaves: the old one while the entry is live, else the fresh one. -/
def lifetime (s : TempStore V) (ledger fresh : UInt32) (k : κ) : UInt32 :=
  match Store.get s k with
  | some e => if ledger ≤ e.liveUntil then e.liveUntil else fresh
  | none => fresh

omit [DecidableEq κ] in
theorem read_congr {s t : TempStore V} {k : κ} (h : Store.get s k = Store.get t k)
    (ledger : UInt32) : read s ledger k = read t ledger k := by
  simp only [read, h]

omit [DecidableEq κ] in
theorem read_eq_some {s : TempStore V} {k : κ} {e : TempEntry (V k)} (h : Store.get s k = some e)
    {ledger : UInt32} (hlive : ledger ≤ e.liveUntil) : read s ledger k = some e.val := by
  simp [read, h, hlive]

theorem write_eq_set (s : TempStore V) (ledger fresh : UInt32) (k : κ) (v : V k) :
    write s ledger fresh k v = Store.set s k ⟨v, lifetime s ledger fresh k⟩ := by
  unfold write lifetime
  cases Store.get s k <;> rfl

theorem retime_set (s : TempStore V) (k : κ) (e : TempEntry (V k)) (f : UInt32 → UInt32) :
    retime (Store.set s k e) k f = Store.set (Store.set s k e) k ⟨e.val, f e.liveUntil⟩ := by
  simp [retime]

/-- Writing under `k` and then changing its lifetime leaves one new entry and no other change. -/
theorem get_retime_write_self (s : TempStore V) (ledger fresh : UInt32) (k : κ) (v : V k)
    (f : UInt32 → UInt32) :
    Store.get (retime (write s ledger fresh k v) k f) k
      = some ⟨v, f (lifetime s ledger fresh k)⟩ := by
  simp [write_eq_set, retime_set]

theorem get_retime_write_of_ne (s : TempStore V) (ledger fresh : UInt32) {k k' : κ} (v : V k)
    (f : UInt32 → UInt32) (h : k' ≠ k) :
    Store.get (retime (write s ledger fresh k v) k f) k' = Store.get s k' := by
  simp [write_eq_set, retime_set, h]

end TempStore

end ZkStellar
