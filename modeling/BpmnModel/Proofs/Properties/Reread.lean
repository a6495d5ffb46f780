import BpmnModel.Proofs.Properties.Encoded
import BpmnModel.Proofs.Table
import BpmnModel.Proofs.Text.Blank

/-!
# Properties are read again

What has been read from a block can be written into a block again: its plain properties in any
order and, in between, the properties that encode its mappings.  Reading such a block gives the
same properties, since whatever mappings are decoded have clean names, agree with one another and
name normalized stores.

## Main definitions

* `Interleaved as bs l` — the row `l` consists of `as` and of `bs`, each in its order.

## Main statements

* `DataMapping.faithful_of_decode` — what is known of decoded mappings.
* `DataMapping.decode_encode_iff` — which mappings are decoded from where they are encoded.
* `Properties.read_of_interleaved` — properties that have been written are read again.
-/

namespace BpmnModel

/-! ## Rows in between -/

/-- The row `l` consists of `as` and of `bs`, each in its order. -/
inductive Interleaved {α : Type} : List α → List α → List α → Prop
  | nil : Interleaved [] [] []
  | left {a : α} {as bs l : List α} (h : Interleaved as bs l) : Interleaved (a :: as) bs (a :: l)
  | right {b : α} {as bs l : List α} (h : Interleaved as bs l) : Interleaved as (b :: bs) (b :: l)

namespace Interleaved

variable {α : Type} {as bs l : List α} {p : α → Bool}

theorem swap (h : Interleaved as bs l) : Interleaved bs as l := by
  induction h with
  | nil => exact .nil
  | left _ ih => exact .right ih
  | right _ ih => exact .left ih

/-- A class that tells the two rows apart picks one of them out. -/
theorem filter_eq_right (h : Interleaved as bs l) (has : ∀ a ∈ as, p a = false)
    (hbs : ∀ b ∈ bs, p b = true) : l.filter p = bs := by
  induction h with
  | nil => rfl
  | left _ ih =>
    obtain ⟨ha, has⟩ := List.forall_mem_cons.mp has
    rw [List.filter_cons_of_neg (by simp [ha]), ih has hbs]
  | right _ ih =>
    obtain ⟨hb, hbs⟩ := List.forall_mem_cons.mp hbs
    rw [List.filter_cons_of_pos hb, ih has hbs]

end Interleaved

/-! ## What decoded mappings are like -/

namespace DataMapping

variable {s : Settings} {values : Table String} {entries : List (String × String)}
  {d : Direction} {key value : String} {m : DataMapping} {ms : List DataMapping}

/-- A decoded mapping is that of a slot with a clean name, whose companions it holds. -/
structure DecodedFrom (s : Settings) (values : Table String) (m : DataMapping) : Prop where
  named : m.id ≠ ""
  trimmed : Text.trim m.id = m.id
  dataPath : companion s values m.direction m.id "dataPath" = .ok m.dataPath
  dataStorageId : ∃ raw, companion s values m.direction m.id "dataStorageId" = .ok raw ∧
    m.dataStorageId = s.normalize raw

theorem decodedFrom_of_decodeEntry (h : decodeEntry s values d key value = .ok m) :
    DecodedFrom s values m := by
  rw [decodeEntry] at h
  by_cases hid : Text.trim value = ""
  · simp [hid] at h
  · simp only [if_neg hid, Outcome.bind_eq_ok_iff, Outcome.pure_eq_ok_iff] at h
    obtain ⟨path, hpath, store, hstore, rfl⟩ := h
    exact {
      named := hid
      trimmed := Text.trim_trim value
      dataPath := hpath
      dataStorageId := ⟨store, hstore, rfl⟩ }

theorem decodedFrom_of_decode (h : decode s entries = .ok ms) (hm : m ∈ ms) :
    DecodedFrom s (Table.ofList entries) m := by
  obtain ⟨e, -, he⟩ := Outcome.exists_of_mem_right (Outcome.mapM_eq_ok_iff.mp h) hm
  exact decodedFrom_of_decodeEntry he

/-- **Decoded mappings are faithful.**  Two mappings of one slot agree because their companions
are looked up under the same keys. -/
theorem faithful_of_decode (h : decode s entries = .ok ms) : Faithful s ms where
  named m hm := (decodedFrom_of_decode h hm).named
  trimmed m hm := (decodedFrom_of_decode h hm).trimmed
  agree m hm n hn hdirection hid := by
    have hm := decodedFrom_of_decode h hm
    have hn := decodedFrom_of_decode h hn
    obtain ⟨raw, hraw, hstore⟩ := hm.dataStorageId
    obtain ⟨raw', hraw', hstore'⟩ := hn.dataStorageId
    have hpath := hm.dataPath
    rw [hdirection, hid] at hpath hraw
    obtain rfl : raw = raw' := Except.ok.inj (hraw.symm.trans hraw')
    refine ⟨Except.ok.inj (hpath.symm.trans hn.dataPath), ?_⟩
    rw [hstore, hstore']

/-- Decoded mappings name normalized stores already. -/
theorem map_normalized_of_decode (h : decode s entries = .ok ms) :
    ms.map (normalized s) = ms := by
  have hsame : ∀ m ∈ ms, normalized s m = m := by
    intro m hm
    obtain ⟨raw, -, hstore⟩ := (decodedFrom_of_decode h hm).dataStorageId
    rw [normalized, hstore, Settings.normalize_normalize, ← hstore]
  rw [List.map_congr_left hsame, List.map_id']

/-! ## What is decoded again -/

/-- Only the stores change, and two that agree when normalized still do so afterwards. -/
theorem faithful_map_normalized : Faithful s (ms.map (normalized s)) ↔ Faithful s ms := by
  constructor
  · rintro ⟨hnamed, htrimmed, hagree⟩
    simp only [List.forall_mem_map, normalized, Settings.normalize_normalize]
      at hnamed htrimmed hagree
    exact ⟨hnamed, htrimmed, hagree⟩
  · rintro ⟨hnamed, htrimmed, hagree⟩
    refine ⟨?_, ?_, ?_⟩ <;>
      simp only [List.forall_mem_map, normalized, Settings.normalize_normalize]
    exacts [hnamed, htrimmed, hagree]

/-- **Mappings are decoded again, with normalized stores, when and only when their slots have clean
names and no two mappings of one slot disagree.**  What is decoded always has these properties, and
normalizing the stores changes none of them. -/
theorem decode_encode_iff (hs : Apart s) :
    decode s (encode s ms) = .ok (ms.map (normalized s)) ↔
      (∀ m ∈ ms, m.id ≠ "" ∧ Text.Unpadded m.id) ∧
        ∀ m ∈ ms, ∀ n ∈ ms, m.direction = n.direction → m.id = n.id →
          m.dataPath = n.dataPath ∧ s.normalize m.dataStorageId = s.normalize n.dataStorageId := by
  simp only [← Text.trim_eq_self_iff]
  constructor
  · intro h
    have hfaithful := faithful_map_normalized.mp (faithful_of_decode h)
    exact ⟨fun m hm => ⟨hfaithful.named m hm, hfaithful.trimmed m hm⟩, hfaithful.agree⟩
  · rintro ⟨hclean, hagree⟩
    exact decode_encode hs {
      named := fun m hm => (hclean m hm).1
      trimmed := fun m hm => (hclean m hm).2
      agree := hagree }

/-- Two mappings of one slot that name the instance store in two ways, and a slot that is named like
a companion of it. -/
def agreeing : List DataMapping :=
  [⟨"a", .input, "p", "PROCESS_INSTANCE"⟩, ⟨"a_dataPath", .input, "q", "store"⟩,
    ⟨"a", .input, "p", ""⟩, ⟨"a", .output, "r", "store"⟩]

/-- They are decoded again, while neither a third path for the slot nor a slot with a blank in front
of its name is. -/
theorem decode_encode_iff_agreeing : Apart {} ∧
    decode {} (encode {} agreeing) = .ok (agreeing.map (normalized {})) ∧
    (∀ m ∈ agreeing, m.id ≠ "" ∧ Text.Unpadded m.id) ∧
    decode {} (encode {} (⟨"a", .input, "s", ""⟩ :: agreeing)) ≠
      .ok ((⟨"a", .input, "s", ""⟩ :: agreeing).map (normalized {})) ∧
    decode {} (encode {} [⟨" a", .input, "p", ""⟩]) ≠
      .ok ([⟨" a", .input, "p", ""⟩].map (normalized {})) := by
  have hs : Apart {} := by decide
  have hagreeing : decode {} (encode {} agreeing) = .ok (agreeing.map (normalized {})) := by
    decide +kernel
  refine ⟨hs, hagreeing, ((decode_encode_iff hs).mp hagreeing).1, fun h => ?_, fun h => ?_⟩
  · exact absurd (((decode_encode_iff hs).mp h).2 _ List.mem_cons_self _
      (List.mem_cons_of_mem _ List.mem_cons_self) rfl rfl).1 (by decide)
  · exact absurd (((decode_encode_iff hs).mp h).1 _ List.mem_cons_self).2 (by decide +kernel)

end DataMapping

/-! ## Blocks -/

namespace Properties

variable {s : Settings} {node node' block block' : Element} {p : Properties}

/-- The plain properties of a block do not look like declarations of mappings. -/
theorem isMappingKey_of_mem_values (h : ofBlock s block = .ok p) {e : String × String}
    (he : e ∈ p.values.entries) : DataMapping.isMappingKey s e.1 = false := by
  have hsome : p.get? e.1 = some e.2 := Table.get?_eq_some_iff.mpr he
  rw [get?_of_ofBlock h] at hsome
  split at hsome
  · simp at hsome
  · rename_i hplain
    simpa using hplain

/-- The mappings of a block, where it has any, are decoded. -/
theorem decode_of_ofBlock (h : ofBlock s block = .ok p) {ms : List DataMapping}
    (hms : p.mappings = some ms) : DataMapping.decode s (mappingEntries s block) = .ok ms := by
  simp only [ofBlock] at h
  split at h
  · rw [← Except.ok.inj h] at hms
    simp at hms
  · obtain ⟨ms', hms', rfl⟩ := Outcome.map_eq_ok_iff.mp h
    obtain rfl : ms' = ms := Option.some.inj hms
    exact hms'

/-- What a block says, when it consists of plain properties and of mappings that are encoded. -/
theorem ofBlock_of_entries {values : Table String} {ms : List DataMapping}
    (hs : DataMapping.Apart s) (hms : DataMapping.Faithful s ms)
    (hplain : (plainEntries s block).Perm values.entries)
    (hmappings : mappingEntries s block = DataMapping.encode s ms) :
    ofBlock s block = .ok {
      values
      mappings := if ms = [] then none else some (ms.map (DataMapping.normalized s)) } := by
  simp only [ofBlock, Table.ofList_of_perm_entries hplain, hmappings]
  cases ms with
  | nil => rfl
  | cons m ms =>
    rw [if_neg (List.cons_ne_nil m ms)]
    show (DataMapping.decode s (DataMapping.encode s (m :: ms))).map _ = _
    rw [DataMapping.decode_encode hs hms]
    rfl

/-- **Properties that have been written are read again.**  Only a declaration of no mapping at all,
made by companions without a slot, is not written and so not read. -/
theorem read_of_interleaved (hs : DataMapping.Apart s) (hread : read s node = .ok (some p))
    {plain : List (String × String)} (hblock : block? node' = some block')
    (hplain : plain.Perm p.values.entries)
    (hentries : Interleaved plain (DataMapping.encode s (p.mappings.getD [])) (entries block')) :
    read s node' = .ok (some {
      values := p.values
      mappings := if p.mappings = some [] then none else p.mappings }) := by
  obtain ⟨block, hp⟩ : ∃ block, ofBlock s block = .ok p := by
    rcases read_eq_ok_iff.mp hread with ⟨-, hnone⟩ | ⟨block, p', -, hp, hsome⟩
    · simp at hnone
    · exact ⟨block, Option.some.inj hsome ▸ hp⟩
  -- the keys tell the plain properties and those that encode mappings apart
  have hplainKey : ∀ e ∈ plain, DataMapping.isMappingKey s e.1 = false :=
    fun e he => isMappingKey_of_mem_values hp (hplain.mem_iff.mp he)
  have hmappingKey : ∀ e ∈ DataMapping.encode s (p.mappings.getD []),
      DataMapping.isMappingKey s e.1 = true := fun e => DataMapping.isMappingKey_of_mem_encode
  have hmappings : mappingEntries s block' = DataMapping.encode s (p.mappings.getD []) :=
    hentries.filter_eq_right hplainKey hmappingKey
  have hvalues : plainEntries s block' = plain :=
    hentries.swap.filter_eq_right (fun e he => by rw [hmappingKey e he]; rfl)
      fun e he => by rw [hplainKey e he]; rfl
  have hknown : DataMapping.Faithful s (p.mappings.getD []) ∧
      (p.mappings.getD []).map (DataMapping.normalized s) = p.mappings.getD [] := by
    cases hms : p.mappings with
    | none => exact ⟨⟨by simp, by simp, by simp⟩, rfl⟩
    | some ms =>
      have hdecode := decode_of_ofBlock hp hms
      exact ⟨DataMapping.faithful_of_decode hdecode, DataMapping.map_normalized_of_decode hdecode⟩
  have hof := ofBlock_of_entries hs hknown.1 (hvalues ▸ hplain) hmappings
  rw [hknown.2] at hof
  refine read_eq_ok_iff.mpr (.inr ⟨block', _, hblock, hof, ?_⟩)
  cases p.mappings with
  | none => rfl
  | some ms => simp

/-! ## Two slots -/

/-- The declaration of two slots.  One is named like the companion of another one, and each name
has to be trimmed or each store normalized. -/
def declaredSlots : Element where
  tag := "task"
  children := [.propertyBlock [("INDATAID_1", " a_dataPath "), ("color", "red"),
    ("OUTDATA_x_dataPath", "q"), ("INDATA_a_dataPath_dataPath", "buyer"), ("OUTDATAID", "x"),
    ("size", "3"), ("INDATA_a_dataPath_dataStorageId", "PROCESS_INSTANCE"),
    ("OUTDATA_x_dataStorageId", "agreement")]]

/-- The same slots as they are encoded, between the plain properties in another order. -/
def encodedSlots : Element where
  tag := "task"
  children := [.propertyBlock [("INDATAID_a_dataPath", "a_dataPath"), ("size", "3"),
    ("INDATA_a_dataPath_dataPath", "buyer"), ("INDATA_a_dataPath_dataStorageId", ""),
    ("color", "red"), ("OUTDATAID_x", "x"), ("OUTDATA_x_dataPath", "q"),
    ("OUTDATA_x_dataStorageId", "agreement")]]

/-- Two slots are read again from where they are encoded. -/
theorem read_of_interleaved_slots : ∃ p : Properties,
    p.mappings = some [⟨"a_dataPath", .input, "buyer", ""⟩, ⟨"x", .output, "q", "agreement"⟩] ∧
      read {} declaredSlots = .ok (some p) ∧ read {} encodedSlots = .ok (some p) := by
  let p : Properties := {
    values := .ofList [("color", "red"), ("size", "3")]
    mappings := some [⟨"a_dataPath", .input, "buyer", ""⟩, ⟨"x", .output, "q", "agreement"⟩] }
  have hread : read {} declaredSlots = .ok (some p) := by decide +kernel
  have hplain : [("size", "3"), ("color", "red")].Perm p.values.entries := List.Perm.swap _ _ _
  refine ⟨p, rfl, hread, read_of_interleaved (by decide) hread rfl hplain ?_⟩
  exact .right (.left (.right (.right (.left (.right (.right (.right .nil)))))))

end Properties

end BpmnModel
