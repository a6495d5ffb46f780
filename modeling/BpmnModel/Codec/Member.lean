import BpmnModel.Codec.Sequence
import BpmnModel.Model.Code
import BpmnModel.Table

/-!
# Members and tables as bytes

A member of a closed set is written as its position in the list of members.  A table is
written as the list of its entries; a reader takes entries in any order, and of two entries
with one key the later one counts.

## Main definitions

* `Codec.member` — the codec of a closed set.
* `Codec.table` — the codec of tables.

## Main statements

* `readsBack_member`, `readsBack_table`.
-/

namespace BpmnModel.Codec

variable {α : Type}

/-- A member of a closed set, as its position. -/
def member [DecidableEq α] [Closed α] : Codec α :=
  (word 4).filterMap Closed.ofIndex? Closed.index

/-- A table, as the list of its entries. -/
def table (c : Codec α) : Codec (Table α) :=
  (list (string.pair c)).map Table.ofList Table.entries

theorem readsBack_member [DecidableEq α] [Closed α]
    (h : (Closed.all (α := α)).length < UInt32.size) (a : α) : member.ReadsBack a := by
  have ha : Closed.index a < (Closed.all (α := α)).length :=
    List.idxOf_lt_length_iff.mpr (Closed.mem_all a)
  exact readsBack_filterMap (readsBack_word (.inl ⟨rfl, Nat.lt_trans ha h⟩)) (by simp)

theorem readsBack_table {c : Codec α} {t : Table α}
    (hk : ∀ e ∈ t.entries, (utf8 e.1).length < UInt64.size)
    (hc : ∀ e ∈ t.entries, c.ReadsBack e.2) (h : t.entries.length < UInt64.size) :
    (table c).ReadsBack t :=
  readsBack_map (readsBack_list (fun e he => readsBack_pair (readsBack_string (hk e he)) (hc e he))
    h) (by simp)

end BpmnModel.Codec
