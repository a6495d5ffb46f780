import BpmnModel.Proofs.Properties.Visible

/-!
# Encoded mappings are decoded again

The properties that encode some mappings are told apart by their keys: a key begins with the
prefix of its direction, goes on with `ID` only where it names a slot, and else ends with the name
of a part.  Decoding them therefore finds each mapping again, where the slots have clean names and
no two mappings of one slot disagree.

## Main definitions

* `DataMapping.Apart settings` — neither prefix begins with the other.
* `DataMapping.Faithful settings mappings` — clean names, no disagreement.

## Main statements

* `DataMapping.companionKey_inj` — a companion's key names a slot and a part.
* `DataMapping.decode_encode` — faithful mappings are decoded again, with normalized stores.
-/

namespace BpmnModel.DataMapping

variable {s : Settings} {d d' : Direction} {id id' part part' key : String}
  {ms : List DataMapping}

/-- Neither prefix of data mappings begins with the other. -/
def Apart (s : Settings) : Prop :=
  ¬ s.inDataPrefix.toList <+: s.outDataPrefix.toList ∧
    ¬ s.outDataPrefix.toList <+: s.inDataPrefix.toList

instance (s : Settings) : Decidable (Apart s) :=
  inferInstanceAs (Decidable (_ ∧ _))

/-- The names of slots are trimmed and not empty, and mappings of one slot agree. -/
structure Faithful (s : Settings) (ms : List DataMapping) : Prop where
  named : ∀ m ∈ ms, m.id ≠ ""
  trimmed : ∀ m ∈ ms, Text.trim m.id = m.id
  agree : ∀ m ∈ ms, ∀ n ∈ ms, m.direction = n.direction → m.id = n.id →
    m.dataPath = n.dataPath ∧ s.normalize m.dataStorageId = s.normalize n.dataStorageId

/-- The mapping as it is decoded. -/
def normalized (s : Settings) (m : DataMapping) : DataMapping :=
  { m with dataStorageId := s.normalize m.dataStorageId }

/-- The parts of a mapping that stand beside the name of its slot, with their values. -/
def companions (m : DataMapping) : List (String × String) :=
  [("dataPath", m.dataPath), ("dataStorageId", m.dataStorageId)]

/-! ## Keys -/

theorem prefix_companionKey (s : Settings) (d : Direction) (id part : String) :
    (keyStart s d).toList <+: (companionKey s d id part).toList := by
  simp [companionKey]

theorem suffix_companionKey (s : Settings) (d : Direction) (id part : String) :
    part.toList <:+ (companionKey s d id part).toList :=
  ⟨(keyStart s d).toList ++ '_' :: (id.toList ++ ['_']), by simp [companionKey]⟩

section Keys

variable (hs : Apart s)
include hs

/-- A key begins with one prefix only. -/
theorem direction_eq_of_prefix {cs : List Char} (h : (keyStart s d).toList <+: cs)
    (h' : (keyStart s d').toList <+: cs) : d = d' := by
  have hor := List.prefix_or_prefix_of_prefix h h'
  cases d <;> cases d'
  · rfl
  · exact absurd hor (not_or.mpr hs)
  · exact absurd hor.symm (not_or.mpr hs)
  · rfl

theorem directionOf?_eq_some_iff :
    directionOf? s key = some d ↔ Text.startsWith key (idKeyStart s d) = true := by
  have hone : ∀ {d d' : Direction}, Text.startsWith key (idKeyStart s d) = true →
      Text.startsWith key (idKeyStart s d') = true → d = d' := by
    intro d d' h h'
    have hd := startsWith_of_append h
    have hd' := startsWith_of_append h'
    exact direction_eq_of_prefix hs (Text.startsWith_iff.mp hd) (Text.startsWith_iff.mp hd')
  rw [directionOf?]
  split
  · rename_i hin
    rw [Option.some.injEq]
    exact ⟨fun h => h ▸ hin, hone hin⟩
  · rename_i hin
    split
    · rename_i hout
      rw [Option.some.injEq]
      exact ⟨fun h => h ▸ hout, hone hout⟩
    · rename_i hout
      cases d <;> simp [hin, hout]

theorem directionOf?_idKey : directionOf? s (idKey s d id) = some d := by
  rw [directionOf?_eq_some_iff hs, Text.startsWith_iff]
  exact ⟨"_".toList ++ id.toList, by simp [idKey]⟩

theorem directionOf?_companionKey : directionOf? s (companionKey s d id part) = none := by
  refine Option.eq_none_iff_forall_ne_some.mpr fun d' h => ?_
  rw [directionOf?_eq_some_iff hs] at h
  obtain rfl : d = d' :=
    direction_eq_of_prefix hs (prefix_companionKey s d id part)
      (Text.startsWith_iff.mp (startsWith_of_append h))
  obtain ⟨rest, hrest⟩ := Text.startsWith_iff.mp h
  simp [idKeyStart, companionKey] at hrest

/-- **A companion's key names a slot and a part.** -/
theorem companionKey_inj (hpart : part ∈ parts) (hpart' : part' ∈ parts) :
    companionKey s d id part = companionKey s d' id' part' ↔
      d = d' ∧ id = id' ∧ part = part' := by
  have htold : ∀ p ∈ parts, ∀ q ∈ parts, p.toList <:+ q.toList ∨ q.toList <:+ p.toList → p = q := by
    decide
  constructor
  · intro h
    obtain rfl : d = d' := direction_eq_of_prefix hs (prefix_companionKey s d id part)
      (h ▸ prefix_companionKey s d' id' part')
    obtain rfl : part = part' := htold part hpart part' hpart'
      (List.suffix_or_suffix_of_suffix (suffix_companionKey s d id part)
        (h ▸ suffix_companionKey s d id' part'))
    simpa [companionKey] using h
  · rintro ⟨rfl, rfl, rfl⟩
    rfl

end Keys

/-! ## Decoding -/

theorem mem_encode_iff {e : String × String} :
    e ∈ encode s ms ↔ ∃ m ∈ ms, e = (idKey s m.direction m.id, m.id) ∨
      ∃ c ∈ m.companions, e = (companionKey s m.direction m.id c.1, c.2) := by
  simp [encode, entries, companions]

theorem mem_parts {m : DataMapping} {c : String × String} (h : c ∈ m.companions) : c.1 ∈ parts := by
  simp only [companions, List.mem_cons, List.not_mem_nil, or_false] at h
  rcases h with rfl | rfl <;> simp [parts]

/-- All properties that encode mappings declare them. -/
theorem isMappingKey_of_mem_encode {e : String × String} (h : e ∈ encode s ms) :
    isMappingKey s e.1 = true := by
  obtain ⟨m, -, rfl | ⟨c, -, rfl⟩⟩ := mem_encode_iff.mp h
  · rw [isMappingKey, Bool.or_eq_true, Text.startsWith_iff, Text.startsWith_iff]
    cases m.direction <;> simp [idKey, idKeyStart, keyStart]
  · exact isMappingKey_companionKey s m.direction m.id c.1

section Decoding

variable (hs : Apart s)
include hs

/-- Each mapping names its slot once. -/
theorem idEntries_encode (ms : List DataMapping) : idEntries s (encode s ms) =
    ms.map fun m => (m.direction, idKey s m.direction m.id, m.id) := by
  have hone : ∀ m : DataMapping, idEntries s (entries s m) =
      [(m.direction, idKey s m.direction m.id, m.id)] := by
    intro m
    simp [idEntries, entries, directionOf?_idKey hs, directionOf?_companionKey hs]
  induction ms with
  | nil => rfl
  | cons m ms ih =>
    rw [encode_cons, idEntries, List.filterMap_append, List.map_cons, ← ih]
    exact congrArg (· ++ idEntries s (encode s ms)) (hone m)

/-- A companion of a slot is found, and it is that of a mapping of the slot. -/
theorem companion_encode {m : DataMapping} {c : String × String} (hm : m ∈ ms)
    (hc : c ∈ m.companions) :
    ∃ n ∈ ms, m.direction = n.direction ∧ m.id = n.id ∧ ∃ v, (c.1, v) ∈ n.companions ∧
      companion s (Table.ofList (encode s ms)) m.direction m.id c.1 = .ok v := by
  obtain ⟨v, hv⟩ : ∃ v, companion s (Table.ofList (encode s ms)) m.direction m.id c.1 = .ok v :=
    exists_companion_iff.mpr ⟨_, mem_encode_iff.mpr ⟨m, hm, .inr ⟨c, hc, rfl⟩⟩, rfl⟩
  have hlookup : (encode s ms).reverse.lookup (companionKey s m.direction m.id c.1) = some v := by
    rw [companion, Table.get?_ofList] at hv
    split at hv
    · rename_i w hw
      rw [hw, Except.ok.inj hv]
    · simp at hv
  obtain ⟨n, hn, hkey | ⟨c', hc', hkey⟩⟩ :=
    mem_encode_iff.mp (List.mem_reverse.mp (Table.mem_of_lookup hlookup))
  · -- a key that names a slot has a direction, which that of a companion has not
    have hnone : directionOf? s (companionKey s m.direction m.id c.1) = none :=
      directionOf?_companionKey hs
    rw [(Prod.mk.inj hkey).1, directionOf?_idKey hs] at hnone
    simp at hnone
  · obtain ⟨hsame, rfl⟩ := Prod.mk.inj hkey
    obtain ⟨hd, hid, hpart⟩ := (companionKey_inj hs (mem_parts hc) (mem_parts hc')).mp hsame
    exact ⟨n, hn, hd, hid, c'.2, hpart ▸ hc', hv⟩

/-- **Faithful mappings are decoded again**, with their stores normalized. -/
theorem decode_encode (h : Faithful s ms) :
    decode s (encode s ms) = .ok (ms.map (normalized s)) := by
  rw [decode, idEntries_encode hs]
  refine Outcome.mapM_map_eq_ok fun m hm => ?_
  obtain ⟨n, hn, hd, hid, path, hpath, hcompanion⟩ :=
    companion_encode hs hm (c := ("dataPath", m.dataPath)) (by simp [companions])
  obtain ⟨n', hn', hd', hid', store, hstore, hcompanion'⟩ :=
    companion_encode hs hm (c := ("dataStorageId", m.dataStorageId)) (by simp [companions])
  obtain rfl : path = n.dataPath := by simpa [companions] using hpath
  obtain rfl : store = n'.dataStorageId := by simpa [companions] using hstore
  rw [decodeEntry, h.trimmed m hm, if_neg (h.named m hm), hcompanion, hcompanion']
  show Except.ok _ = _
  rw [normalized, (h.agree m hm n hn hd hid).1, (h.agree m hm n' hn' hd' hid').2]

end Decoding

end BpmnModel.DataMapping
