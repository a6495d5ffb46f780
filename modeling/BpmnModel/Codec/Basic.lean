/-!
# Codecs

A codec writes a value as bytes and reads one back from the front of a list of bytes, with
the bytes that follow.  Codecs of larger values are put together from codecs of their
parts, writer and reader in one step, so that the two can not disagree about the order of
fields.

## Main definitions

* `Codec α` — a writer and a reader.
* `Codec.pair`, `Codec.map`, `Codec.filterMap` — codecs from codecs.
* `Codec.ReadsBack c a` — reading the bytes of `a` gives `a` back, whatever follows.

## Main statements

* `readsBack_pair`, `readsBack_map`, `readsBack_filterMap` — values read back when their
  parts do.
-/

namespace BpmnModel

/-- A writer of values and a reader that leaves what follows. -/
structure Codec (α : Type) where
  /-- The bytes of a value. -/
  encode : α → List UInt8
  /-- The value at the front, with the bytes that follow. -/
  decode : List UInt8 → Option (α × List UInt8)

namespace Codec

variable {α β : Type}

/-- Reading the bytes of a value gives the value back and leaves what follows. -/
def ReadsBack (c : Codec α) (a : α) : Prop :=
  ∀ rest, c.decode (c.encode a ++ rest) = some (a, rest)

/-! ## From codecs to codecs -/

/-- Two values, one after the other. -/
def pair (a : Codec α) (b : Codec β) : Codec (α × β) where
  encode v := a.encode v.1 ++ b.encode v.2
  decode bytes := do
    let (x, rest) ← a.decode bytes
    let (y, rest) ← b.decode rest
    return ((x, y), rest)

/-- The values that stand for others, where what is read may stand for none. -/
def filterMap (c : Codec α) (make : α → Option β) (view : β → α) : Codec β where
  encode v := c.encode (view v)
  decode bytes := do
    let (x, rest) ← c.decode bytes
    let y ← make x
    return (y, rest)

/-- The values that stand for others. -/
def map (c : Codec α) (make : α → β) (view : β → α) : Codec β :=
  c.filterMap (fun x => some (make x)) view

theorem readsBack_pair {a : Codec α} {b : Codec β} {v : α × β} (ha : a.ReadsBack v.1)
    (hb : b.ReadsBack v.2) : (a.pair b).ReadsBack v := by
  intro rest
  simp [pair, ha _, hb _]

theorem readsBack_filterMap {c : Codec α} {make : α → Option β} {view : β → α} {v : β}
    (hc : c.ReadsBack (view v)) (hv : make (view v) = some v) :
    (c.filterMap make view).ReadsBack v := by
  intro rest
  simp [filterMap, hc _, hv]

theorem readsBack_map {c : Codec α} {make : α → β} {view : β → α} {v : β}
    (hc : c.ReadsBack (view v)) (hv : make (view v) = v) : (c.map make view).ReadsBack v :=
  readsBack_filterMap hc (by rw [hv])

end Codec

end BpmnModel
