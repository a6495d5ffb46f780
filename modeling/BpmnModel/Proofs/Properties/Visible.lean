import BpmnModel.Properties.Basic
import BpmnModel.Proofs.Outcome

/-!
# What a block of properties says

A property is visible when its name begins with neither prefix of data mappings; of two with
one name the later counts.  The others declare mappings, and a block can be decoded when each
of them that names a slot has the companions of that slot.  Reading a block succeeds exactly
for blocks that can be decoded, and yields the visible properties.

## Main definitions

* `Properties.visible? settings node key` — the value of a visible property of an element.
* `Properties.Decodable settings node` — the block of an element, if any, can be decoded.
* `Element.propertyBlock ps` — a block of given properties.

## Main statements

* `Properties.exists_read_iff` — the elements whose properties can be read.
* `Properties.get?_of_read` — what is then known of a property.
-/

namespace BpmnModel

/-- The block of some properties. -/
def Element.propertyBlock (ps : List (String × String)) : Element where
  tag := "extensionElements"
  children := [{
    tag := "properties"
    children := ps.map fun p =>
      { tag := "property", attributes := .ofList [("name", p.1), ("value", p.2)] } }]

/-! ## Mappings that can be decoded -/

namespace DataMapping

/-- The declarations of a mapping that stand beside the name of its slot. -/
def parts : List String := ["dataPath", "dataStorageId"]

/-- Some entries that declare mappings: each one that names a slot gives a name that is not
blank, and has both companions. -/
def Complete (s : Settings) (entries : List (String × String)) : Prop :=
  ∀ e ∈ entries, ∀ d, directionOf? s e.1 = some d →
    Text.trim e.2 ≠ "" ∧
      ∀ part ∈ parts, ∃ c ∈ entries, c.1 = companionKey s d (Text.trim e.2) part

theorem exists_companion_iff {s : Settings} {entries : List (String × String)} {d : Direction}
    {id part : String} :
    (∃ v, companion s (Table.ofList entries) d id part = .ok v) ↔
      ∃ c ∈ entries, c.1 = companionKey s d id part := by
  have hlookup : ((Table.ofList entries).get? (companionKey s d id part)).isSome ↔
      ∃ c ∈ entries, c.1 = companionKey s d id part := by
    rw [Table.get?_ofList, List.lookup_isSome_iff]
    constructor
    · rintro ⟨c, hc, hkey⟩
      exact ⟨c, List.mem_reverse.mp hc, (beq_iff_eq.mp hkey).symm⟩
    · rintro ⟨c, hc, hkey⟩
      exact ⟨c, List.mem_reverse.mpr hc, beq_iff_eq.mpr hkey.symm⟩
  rw [← hlookup, companion]
  cases (Table.ofList entries).get? (companionKey s d id part) <;> simp

theorem exists_decodeEntry_iff {s : Settings} {entries : List (String × String)} {d : Direction}
    {key value : String} :
    (∃ m, decodeEntry s (Table.ofList entries) d key value = .ok m) ↔
      Text.trim value ≠ "" ∧
        ∀ part ∈ parts, ∃ c ∈ entries, c.1 = companionKey s d (Text.trim value) part := by
  rw [decodeEntry]
  by_cases hid : Text.trim value = ""
  · simp [hid]
  · simp only [if_neg hid, Outcome.bind_eq_ok_iff, Outcome.pure_eq_ok_iff, parts,
      List.forall_mem_cons, ← exists_companion_iff]
    constructor
    · rintro ⟨m, path, hpath, store, hstore, -⟩
      exact ⟨hid, ⟨path, hpath⟩, ⟨store, hstore⟩, by simp⟩
    · rintro ⟨-, ⟨path, hpath⟩, ⟨store, hstore⟩, -⟩
      exact ⟨_, path, hpath, store, hstore, rfl⟩

/-- **Entries can be decoded when, and only when, they are complete.** -/
theorem exists_decode_iff {s : Settings} {entries : List (String × String)} :
    (∃ ms, decode s entries = .ok ms) ↔ Complete s entries := by
  rw [decode, Outcome.exists_mapM_iff]
  simp only [exists_decodeEntry_iff, idEntries, List.mem_filterMap]
  constructor
  · intro h e he d hd
    exact h (d, e) ⟨e, he, by rw [hd, Option.map_some]⟩
  · rintro h e ⟨e', he', hd'⟩
    obtain ⟨d, hd, rfl⟩ := Option.map_eq_some_iff.mp hd'
    exact h e' he' d hd

/-- A name that begins with a longer text begins with the shorter one. -/
theorem startsWith_of_append {key start more : String}
    (h : Text.startsWith key (start ++ more) = true) : Text.startsWith key start = true := by
  obtain ⟨rest, hrest⟩ := Text.startsWith_iff.mp h
  rw [String.toList_append, List.append_assoc] at hrest
  exact Text.startsWith_iff.mpr ⟨more.toList ++ rest, hrest⟩

/-- Entries that name a slot declare mappings. -/
theorem isMappingKey_of_directionOf? {s : Settings} {key : String} {d : Direction}
    (h : directionOf? s key = some d) : isMappingKey s key = true := by
  rw [directionOf?] at h
  rw [isMappingKey, Bool.or_eq_true]
  split at h
  · rename_i hin
    exact .inl (startsWith_of_append hin)
  · split at h
    · rename_i hout
      exact .inr (startsWith_of_append hout)
    · simp at h

/-- Companions declare mappings. -/
theorem isMappingKey_companionKey (s : Settings) (d : Direction) (id part : String) :
    isMappingKey s (companionKey s d id part) = true := by
  rw [isMappingKey, Bool.or_eq_true]
  have hstart : Text.startsWith (companionKey s d id part) (keyStart s d) = true := by
    rw [Text.startsWith_iff]
    exact ⟨"_".toList ++ (id.toList ++ ("_".toList ++ part.toList)), by simp [companionKey]⟩
  cases d with
  | input => exact .inl hstart
  | output => exact .inr hstart

/-- Entries that declare no mapping are no part of any. -/
theorem complete_filter_iff {s : Settings} {entries : List (String × String)} :
    Complete s (entries.filter fun e => isMappingKey s e.1) ↔ Complete s entries := by
  have companions : ∀ d id part,
      (∃ c ∈ entries.filter fun e => isMappingKey s e.1, c.1 = companionKey s d id part) ↔
        ∃ c ∈ entries, c.1 = companionKey s d id part := by
    intro d id part
    constructor
    · rintro ⟨c, hc, hkey⟩
      exact ⟨c, (List.mem_filter.mp hc).1, hkey⟩
    · rintro ⟨c, hc, hkey⟩
      refine ⟨c, List.mem_filter.mpr ⟨hc, ?_⟩, hkey⟩
      rw [hkey]
      exact isMappingKey_companionKey s d id part
  simp only [Complete, companions]
  constructor
  · intro h e he d hd
    exact h e (List.mem_filter.mpr ⟨he, isMappingKey_of_directionOf? hd⟩) d hd
  · intro h e he d hd
    exact h e (List.mem_filter.mp he).1 d hd

end DataMapping

namespace Properties

/-! ## Visible properties -/

/-- The value of a visible property, by the last property with that name in the block of the
element. -/
def visible? (s : Settings) (node : Element) (key : String) : Option String :=
  if DataMapping.isMappingKey s key then none
  else (block? node).bind fun block => (entries block).reverse.lookup key

/-- The entries of the element's block, if it has one, declare complete mappings. -/
def Decodable (s : Settings) (node : Element) : Prop :=
  ∀ block, block? node = some block → DataMapping.Complete s (entries block)

/-- Choosing pairs by their keys hides all pairs with a key or none. -/
theorem lookup_filter_key {q : String → Bool} {l : List (String × String)} {key : String} :
    (l.filter fun e => q e.1).lookup key = if q key then l.lookup key else none := by
  induction l with
  | nil => simp
  | cons e l ih =>
    rw [List.filter_cons, Table.lookup_cons_eq]
    by_cases hk : key = e.1
    · subst hk
      by_cases hq : q e.1 = true
      · simp [hq, Table.lookup_cons_eq]
      · simp [hq, ih]
    · by_cases hq : q e.1 = true
      · simp [hq, hk, ih, Table.lookup_cons_eq]
      · simp [hq, hk, ih]

theorem get?_of_ofBlock {s : Settings} {block : Element} {p : Properties}
    (h : ofBlock s block = .ok p) (key : String) :
    p.get? key = if DataMapping.isMappingKey s key then none
      else (entries block).reverse.lookup key := by
  rw [get?, values_of_ofBlock h, Table.get?_ofList, plainEntries, ← List.filter_reverse,
    lookup_filter_key (q := fun k => !DataMapping.isMappingKey s k)]
  cases DataMapping.isMappingKey s key <;> simp

theorem exists_ofBlock_iff {s : Settings} {block : Element} :
    (∃ p, ofBlock s block = .ok p) ↔ DataMapping.Complete s (entries block) := by
  rw [← DataMapping.complete_filter_iff, ← DataMapping.exists_decode_iff]
  show _ ↔ ∃ ms, DataMapping.decode s (mappingEntries s block) = .ok ms
  simp only [ofBlock]
  split
  · rename_i hnone
    simp only [hnone, DataMapping.exists_decode_iff, DataMapping.Complete]
    simp
  · simp only [Outcome.map_eq_ok_iff]
    constructor
    · rintro ⟨p, ms, hms, -⟩
      exact ⟨ms, hms⟩
    · rintro ⟨ms, hms⟩
      exact ⟨_, ms, hms, rfl⟩

/-! ## Reading -/

theorem read_eq_ok_iff {s : Settings} {node : Element} {o : Option Properties} :
    read s node = .ok o ↔ (block? node = none ∧ o = none) ∨
      ∃ block p, block? node = some block ∧ ofBlock s block = .ok p ∧ o = some p := by
  rw [read]
  cases hb : block? node with
  | none => simp [eq_comm]
  | some block =>
    cases hp : ofBlock s block with
    | ok p => simp [hp, eq_comm]
    | error fault => simp [hp]

/-- A block that can not be read is told with its element. -/
theorem cause_of_read {s : Settings} {node : Element} {e : StructureError}
    (h : read s node = .error e) : ∃ reason, e = .malformedExtension node.id reason := by
  rw [read] at h
  split at h
  · simp at h
  · split at h
    · simp at h
    · exact ⟨_, (Except.error.inj h).symm⟩

/-- **The properties of an element can be read when, and only when, they can be decoded.** -/
theorem exists_read_iff {s : Settings} {node : Element} :
    (∃ o, read s node = .ok o) ↔ Decodable s node := by
  simp only [read_eq_ok_iff, Decodable, ← exists_ofBlock_iff]
  cases hb : block? node with
  | none => simp
  | some block =>
    constructor
    · rintro ⟨o, ⟨hnone, -⟩ | ⟨b, p, hblock, hp, -⟩⟩
      · simp at hnone
      · intro b' hb'
        obtain rfl := Option.some.inj (hblock.symm.trans hb')
        exact ⟨p, hp⟩
    · intro h
      obtain ⟨p, hp⟩ := h block rfl
      exact ⟨some p, .inr ⟨block, p, rfl, hp, rfl⟩⟩

/-- **Reading yields the visible properties.** -/
theorem get?_of_read {s : Settings} {node : Element} {p : Properties}
    (h : read s node = .ok (some p)) (key : String) : p.get? key = visible? s node key := by
  rcases read_eq_ok_iff.mp h with ⟨-, hnone⟩ | ⟨block, p', hb, hp, hsome⟩
  · simp at hnone
  · obtain rfl := Option.some.inj hsome
    rw [get?_of_ofBlock hp, visible?, hb, Option.bind_some]

/-- Properties are read where there is a block. -/
theorem isSome_of_read {s : Settings} {node : Element} {o : Option Properties}
    (h : read s node = .ok o) : o.isSome = (block? node).isSome := by
  rcases read_eq_ok_iff.mp h with ⟨hb, rfl⟩ | ⟨block, p, hb, -, rfl⟩
  · simp [hb]
  · simp [hb]

/-- An element without a block shows no property. -/
theorem visible?_of_read_none {s : Settings} {node : Element} (h : read s node = .ok none)
    (key : String) : visible? s node key = none := by
  rcases read_eq_ok_iff.mp h with ⟨hb, -⟩ | ⟨block, p, -, -, hsome⟩
  · simp [visible?, hb]
  · simp at hsome

theorem exists_readOrEmpty_iff {s : Settings} {node : Element} :
    (∃ p, readOrEmpty s node = .ok p) ↔ Decodable s node := by
  rw [← exists_read_iff]
  simp only [readOrEmpty, Outcome.bind_eq_ok_iff, Outcome.pure_eq_ok_iff]
  constructor
  · rintro ⟨p, o, ho, -⟩
    exact ⟨o, ho⟩
  · rintro ⟨o, ho⟩
    exact ⟨_, o, ho, rfl⟩

/-- A missing block shows what an empty one does: nothing. -/
theorem get?_of_readOrEmpty {s : Settings} {node : Element} {p : Properties}
    (h : readOrEmpty s node = .ok p) (key : String) : p.get? key = visible? s node key := by
  simp only [readOrEmpty, Outcome.bind_eq_ok_iff, Outcome.pure_eq_ok_iff] at h
  obtain ⟨o, ho, rfl⟩ := h
  cases o with
  | none =>
    rw [visible?_of_read_none ho]
    rfl
  | some p => exact get?_of_read ho key

end Properties

end BpmnModel
