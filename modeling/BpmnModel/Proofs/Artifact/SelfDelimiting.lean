import BpmnModel.Artifact.Document
import BpmnModel.Proofs.Codec.Extension

/-!
# Artifacts are self-delimiting

The binary form of a document can be read back whatever follows it, and no proper beginning of
it can be read at all, so an artifact that was cut off never loads as another document.  Both
hold of every record of a document, and are put together the way the codecs are.

Lengths are written as numbers of 64 bits.  Lists and texts know no bound here, so the round
trip asks that every length fits; on a machine no text or list is any longer.

## Main definitions

* `Lengths.lengths a` — the lengths that the binary form of `a` holds.
* `Fits a` — each of them is a number of 64 bits.

## Main statements

* `Document.ofBytes_toBytes` — a document reads back, and from no proper beginning.
-/

namespace BpmnModel

/-! ## Lengths that fit -/

/-- Values whose binary form holds the lengths of their texts, lists and tables. -/
class Lengths (α : Type) where
  /-- All lengths in the binary form. -/
  lengths : α → List Nat

open Lengths (lengths)

/-- Every length in the binary form is a number of 64 bits. -/
def Fits {α : Type} [Lengths α] (a : α) : Prop :=
  ∀ n ∈ lengths a, n < UInt64.size

namespace Fits

variable {α β : Type}

instance [Lengths α] (a : α) : Decidable (Fits a) :=
  inferInstanceAs (Decidable (∀ n ∈ lengths a, n < UInt64.size))

instance : Lengths String := ⟨fun s => [(Codec.utf8 s).length]⟩

instance [Lengths α] : Lengths (List α) := ⟨fun l => l.length :: l.flatMap lengths⟩

instance [Lengths α] : Lengths (Option α) := ⟨fun o => o.toList.flatMap lengths⟩

instance [Lengths α] [Lengths β] : Lengths (α × β) := ⟨fun p => lengths p.1 ++ lengths p.2⟩

instance : Lengths (Table String) := ⟨fun t => lengths t.entries⟩

theorem string_iff {s : String} : Fits s ↔ (Codec.utf8 s).length < UInt64.size := by
  simp [Fits, lengths]

theorem list_iff [Lengths α] {l : List α} :
    Fits l ↔ l.length < UInt64.size ∧ ∀ a ∈ l, Fits a := by
  simp only [Fits, lengths, List.forall_mem_cons, List.mem_flatMap]
  exact and_congr_right fun _ =>
    ⟨fun h a ha n hn => h n ⟨a, ha, hn⟩, fun h n ⟨a, ha, hn⟩ => h a ha n hn⟩

theorem option_iff [Lengths α] {o : Option α} : Fits o ↔ ∀ a, o = some a → Fits a := by
  cases o with
  | none => simp [Fits, lengths]
  | some a => simp [Fits, lengths]

@[simp] theorem pair_iff [Lengths α] [Lengths β] {a : α} {b : β} :
    Fits (a, b) ↔ Fits a ∧ Fits b := by
  simp [Fits, lengths, or_imp, forall_and]

end Fits

/-! ## The records of a document -/

namespace Artifact

open Codec

instance : Lengths DataStoreField := ⟨fun f => lengths (f.dataStorageId, f.dataPath)⟩

instance : Lengths Model := ⟨fun m => lengths (m.id, m.name, m.dataStoreFields)⟩

instance : Lengths Participant := ⟨fun p => lengths (p.id, p.name, p.tasks, p.properties)⟩

instance : Lengths DataMapping := ⟨fun m => lengths (m.id, m.dataPath, m.dataStorageId)⟩

instance : Lengths Activity := ⟨fun a =>
  lengths (a.id, a.name, a.assignee, a.application, a.subProcessModelId,
    a.subProcessDefinitionId, a.dataMappings)⟩

instance : Lengths Gateway := ⟨fun g => lengths (g.id, g.incoming, g.outgoing, g.fallback)⟩

instance : Lengths DefaultTransition := ⟨fun d => lengths (d.gateway, d.transition, d.activity)⟩

instance : Lengths ConditionValue where
  lengths
    | .raw s => lengths s
    | .text s => lengths s
    | _ => []

instance : Lengths Condition := ⟨fun c =>
  lengths (c.lhDataStorageId, c.lhDataPath, c.operator, c.rhValue, c.rhDataStorageId,
    c.rhDataPath)⟩

instance : Lengths Transition := ⟨fun t => lengths (t.id, t.source, t.target, t.condition)⟩

instance : Lengths Process := ⟨fun p =>
  lengths (p.id, p.name, p.interface, p.participants, p.tasks, p.userTasks, p.sendTasks,
    p.serviceTasks, p.subProcesses, p.xorGateways, p.andGateways, p.transitions,
    p.activityMap, p.defaultTransitions)⟩

instance : Lengths Document := ⟨fun d => lengths (d.model, d.processes)⟩

/-! ## Reading back -/

theorem readsBack_text {s : String} (h : Fits s) : string.ReadsBack s :=
  readsBack_string (Fits.string_iff.mp h)

theorem readsBack_items {α : Type} [Lengths α] {c : Codec α} {l : List α}
    (hc : ∀ a, Fits a → c.ReadsBack a) (h : Fits l) : (list c).ReadsBack l := by
  obtain ⟨hl, ha⟩ := Fits.list_iff.mp h
  exact readsBack_list (fun a hm => hc a (ha a hm)) hl

theorem readsBack_optional {α : Type} [Lengths α] {c : Codec α} {o : Option α}
    (hc : ∀ a, Fits a → c.ReadsBack a) (h : Fits o) : (option c).ReadsBack o :=
  readsBack_option fun a ha => hc a (Fits.option_iff.mp h a ha)

theorem readsBack_texts {t : Table String} (h : Fits t) : (table string).ReadsBack t := by
  obtain ⟨hl, he⟩ := Fits.list_iff.mp (h : Fits t.entries)
  refine readsBack_table (fun e hm => ?_) (fun e hm => ?_) hl
  · exact Fits.string_iff.mp (Fits.pair_iff.mp (he e hm)).1
  · exact readsBack_text (Fits.pair_iff.mp (he e hm)).2

/-- A closed set of fewer than 2³² members reads back. -/
theorem readsBack_kind {α : Type} [DecidableEq α] [Closed α] (a : α)
    (h : (Closed.all (α := α)).length < UInt32.size := by decide) : member.ReadsBack a :=
  readsBack_member h a

theorem readsBack_version (v : Version) : version.ReadsBack v :=
  readsBack_map (readsBack_pair (readsBack_word32 v.major)
    (readsBack_pair (readsBack_word32 v.minor) (readsBack_word32 v.patch))) rfl

theorem readsBack_dataStoreField (f : DataStoreField) (h : Fits f) :
    dataStoreField.ReadsBack f := by
  obtain ⟨hstore, hpath⟩ := Fits.pair_iff.mp (h : Fits (f.dataStorageId, f.dataPath))
  refine readsBack_map ?_ rfl
  refine readsBack_pair (readsBack_text hstore) ?_
  exact readsBack_pair (readsBack_text hpath) (readsBack_kind f.parameterType)

theorem readsBack_model (m : Model) (h : Fits m) : model.ReadsBack m := by
  have h : Fits (m.id, m.name, m.dataStoreFields) := h
  simp only [Fits.pair_iff] at h
  obtain ⟨hid, hname, hfields⟩ := h
  refine readsBack_map ?_ rfl
  refine readsBack_pair (readsBack_text hid) ?_
  refine readsBack_pair (readsBack_text hname) ?_
  refine readsBack_pair (readsBack_version m.version) ?_
  refine readsBack_pair (readsBack_bool m.isPrivate) ?_
  exact readsBack_items readsBack_dataStoreField hfields

theorem readsBack_participant (p : Participant) (h : Fits p) : participant.ReadsBack p := by
  have h : Fits (p.id, p.name, p.tasks, p.properties) := h
  simp only [Fits.pair_iff] at h
  obtain ⟨hid, hname, htasks, hproperties⟩ := h
  refine readsBack_map ?_ rfl
  refine readsBack_pair (readsBack_text hid) ?_
  refine readsBack_pair (readsBack_text hname) ?_
  refine readsBack_pair (readsBack_items (fun _ => readsBack_text) htasks) ?_
  refine readsBack_pair (readsBack_option fun b _ => readsBack_bool b) ?_
  exact readsBack_texts hproperties

theorem readsBack_dataMapping (m : DataMapping) (h : Fits m) : dataMapping.ReadsBack m := by
  have h : Fits (m.id, m.dataPath, m.dataStorageId) := h
  simp only [Fits.pair_iff] at h
  obtain ⟨hid, hpath, hstore⟩ := h
  refine readsBack_map ?_ rfl
  refine readsBack_pair (readsBack_text hid) ?_
  refine readsBack_pair (readsBack_kind m.direction) ?_
  exact readsBack_pair (readsBack_text hpath) (readsBack_text hstore)

theorem readsBack_activity (a : Activity) (h : Fits a) : activity.ReadsBack a := by
  have h : Fits (a.id, a.name, a.assignee, a.application, a.subProcessModelId,
    a.subProcessDefinitionId, a.dataMappings) := h
  simp only [Fits.pair_iff] at h
  obtain ⟨hid, hname, hassignee, happlication, hmodel, hdefinition, hmappings⟩ := h
  refine readsBack_map ?_ rfl
  refine readsBack_pair (readsBack_text hid) ?_
  refine readsBack_pair (readsBack_text hname) ?_
  refine readsBack_pair (readsBack_kind a.kind) ?_
  refine readsBack_pair (readsBack_text hassignee) ?_
  refine readsBack_pair (readsBack_kind a.activityType) ?_
  refine readsBack_pair (readsBack_kind a.taskType) ?_
  refine readsBack_pair (readsBack_kind a.behavior) ?_
  refine readsBack_pair (readsBack_bool a.multiInstance) ?_
  refine readsBack_pair (readsBack_text happlication) ?_
  refine readsBack_pair (readsBack_text hmodel) ?_
  refine readsBack_pair (readsBack_text hdefinition) ?_
  exact readsBack_optional (fun _ => readsBack_items readsBack_dataMapping) hmappings

theorem readsBack_gateway (g : Gateway) (h : Fits g) : gateway.ReadsBack g := by
  have h : Fits (g.id, g.incoming, g.outgoing, g.fallback) := h
  simp only [Fits.pair_iff] at h
  obtain ⟨hid, hincoming, houtgoing, hfallback⟩ := h
  refine readsBack_map ?_ rfl
  refine readsBack_pair (readsBack_text hid) ?_
  refine readsBack_pair (readsBack_kind g.gatewayType) ?_
  refine readsBack_pair (readsBack_items (fun _ => readsBack_text) hincoming) ?_
  refine readsBack_pair (readsBack_items (fun _ => readsBack_text) houtgoing) ?_
  exact readsBack_optional (fun _ => readsBack_text) hfallback

theorem readsBack_defaultTransition (d : DefaultTransition) (h : Fits d) :
    defaultTransition.ReadsBack d := by
  have h : Fits (d.gateway, d.transition, d.activity) := h
  simp only [Fits.pair_iff] at h
  obtain ⟨hgateway, htransition, hactivity⟩ := h
  refine readsBack_map ?_ rfl
  refine readsBack_pair (readsBack_text hgateway) ?_
  exact readsBack_pair (readsBack_text htransition) (readsBack_text hactivity)

/-- The kind of a value is written as a number below five. -/
theorem readsBack_conditionValue (v : ConditionValue) (h : Fits v) :
    conditionValue.ReadsBack v := by
  intro rest
  have tag : ∀ kind bytes, kind < 5 →
      decodeWord 4 (encodeWord kind ++ bytes) = some (kind, bytes) := by
    intro kind bytes hk
    exact readsBack_word (.inl ⟨rfl, Nat.lt_trans hk (by decide)⟩) bytes
  cases v with
  | raw s => simp [conditionValue, tag 0, readsBack_text (s := s) h _]
  | bool b => simp [conditionValue, tag 1, readsBack_bool b _]
  | int n => simp [conditionValue, tag 2, readsBack_int64 n _]
  | uint n => simp [conditionValue, tag 3, readsBack_word64 n _]
  | text s => simp [conditionValue, tag 4, readsBack_text (s := s) h _]

theorem readsBack_condition (c : Condition) (h : Fits c) : condition.ReadsBack c := by
  have h : Fits (c.lhDataStorageId, c.lhDataPath, c.operator, c.rhValue, c.rhDataStorageId,
    c.rhDataPath) := h
  simp only [Fits.pair_iff] at h
  obtain ⟨hstore, hpath, hoperator, hvalue, hrhStore, hrhPath⟩ := h
  refine readsBack_map ?_ rfl
  refine readsBack_pair (readsBack_text hstore) ?_
  refine readsBack_pair (readsBack_text hpath) ?_
  refine readsBack_pair (readsBack_text hoperator) ?_
  refine readsBack_pair (readsBack_option fun o _ => readsBack_kind o) ?_
  refine readsBack_pair (readsBack_conditionValue _ hvalue) ?_
  refine readsBack_pair (readsBack_optional (fun _ => readsBack_text) hrhStore) ?_
  refine readsBack_pair (readsBack_optional (fun _ => readsBack_text) hrhPath) ?_
  exact readsBack_option fun t _ => readsBack_kind t

theorem readsBack_transition (t : Transition) (h : Fits t) : transition.ReadsBack t := by
  have h : Fits (t.id, t.source, t.target, t.condition) := h
  simp only [Fits.pair_iff] at h
  obtain ⟨hid, hsource, htarget, hcondition⟩ := h
  refine readsBack_map ?_ rfl
  refine readsBack_pair (readsBack_text hid) ?_
  refine readsBack_pair (readsBack_text hsource) ?_
  refine readsBack_pair (readsBack_text htarget) ?_
  exact readsBack_optional readsBack_condition hcondition

theorem readsBack_process (p : Process) (h : Fits p) : process.ReadsBack p := by
  have h : Fits (p.id, p.name, p.interface, p.participants, p.tasks, p.userTasks, p.sendTasks,
    p.serviceTasks, p.subProcesses, p.xorGateways, p.andGateways, p.transitions,
    p.activityMap, p.defaultTransitions) := h
  simp only [Fits.pair_iff] at h
  obtain ⟨hid, hname, hinterface, hparticipants, htasks, huser, hsend, hservice, hsub, hxor, hand,
    htransitions, hmap, hdefaults⟩ := h
  refine readsBack_map ?_ rfl
  refine readsBack_pair (readsBack_text hid) ?_
  refine readsBack_pair (readsBack_text hname) ?_
  refine readsBack_pair (readsBack_text hinterface) ?_
  refine readsBack_pair (readsBack_items readsBack_participant hparticipants) ?_
  refine readsBack_pair (readsBack_items readsBack_activity htasks) ?_
  refine readsBack_pair (readsBack_items readsBack_activity huser) ?_
  refine readsBack_pair (readsBack_items readsBack_activity hsend) ?_
  refine readsBack_pair (readsBack_items readsBack_activity hservice) ?_
  refine readsBack_pair (readsBack_items readsBack_activity hsub) ?_
  refine readsBack_pair (readsBack_items readsBack_gateway hxor) ?_
  refine readsBack_pair (readsBack_items readsBack_gateway hand) ?_
  refine readsBack_pair (readsBack_items readsBack_transition htransitions) ?_
  refine readsBack_pair (readsBack_texts hmap) ?_
  exact readsBack_items readsBack_defaultTransition hdefaults

theorem readsBack_document (d : Document) (h : Fits d) : document.ReadsBack d := by
  obtain ⟨hmodel, hprocesses⟩ := Fits.pair_iff.mp (h : Fits (d.model, d.processes))
  refine readsBack_map ?_ rfl
  exact readsBack_pair (readsBack_model d.model hmodel)
    (readsBack_items readsBack_process hprocesses)

/-! ## No reader looks further than it has to -/

theorem extends_version : version.Extends :=
  extends_map (extends_pair extends_word32 (extends_pair extends_word32 extends_word32)) _ _

theorem extends_dataStoreField : dataStoreField.Extends :=
  extends_map (extends_pair extends_string (extends_pair extends_string extends_member)) _ _

theorem extends_model : model.Extends := by
  refine extends_map (extends_pair extends_string (extends_pair extends_string ?_)) _ _
  refine extends_pair extends_version (extends_pair extends_bool ?_)
  exact extends_list extends_dataStoreField

theorem extends_participant : participant.Extends := by
  refine extends_map (extends_pair extends_string (extends_pair extends_string ?_)) _ _
  refine extends_pair (extends_list extends_string) ?_
  exact extends_pair (extends_option extends_bool) (extends_table extends_string)

theorem extends_dataMapping : dataMapping.Extends := by
  refine extends_map (extends_pair extends_string (extends_pair extends_member ?_)) _ _
  exact extends_pair extends_string extends_string

theorem extends_activity : activity.Extends := by
  refine extends_map (extends_pair extends_string (extends_pair extends_string ?_)) _ _
  refine extends_pair extends_member (extends_pair extends_string ?_)
  refine extends_pair extends_member (extends_pair extends_member (extends_pair extends_member ?_))
  refine extends_pair extends_bool (extends_pair extends_string ?_)
  refine extends_pair extends_string (extends_pair extends_string ?_)
  exact extends_option (extends_list extends_dataMapping)

theorem extends_gateway : gateway.Extends := by
  refine extends_map (extends_pair extends_string (extends_pair extends_member ?_)) _ _
  refine extends_pair (extends_list extends_string) (extends_pair (extends_list extends_string) ?_)
  exact extends_option extends_string

theorem extends_defaultTransition : defaultTransition.Extends :=
  extends_map (extends_pair extends_string (extends_pair extends_string extends_string)) _ _

/-- After the kind of a value comes what it holds, read by the codec of that kind. -/
theorem extends_conditionValue : conditionValue.Extends := by
  intro bytes v rest more h
  have held : ∀ {α : Type} {c : Codec α} (_ : c.Extends) (make : α → ConditionValue) {mid},
      (c.decode mid).map (fun r => (make r.1, r.2)) = some (v, rest) →
      (c.decode (mid ++ more)).map (fun r => (make r.1, r.2)) = some (v, rest ++ more) := by
    intro α c hc make mid hm
    obtain ⟨⟨a, last⟩, ha, hv⟩ := Option.map_eq_some_iff.mp hm
    obtain ⟨rfl, rfl⟩ : make a = v ∧ last = rest := by simpa using hv
    exact Option.map_eq_some_iff.mpr ⟨(a, last ++ more), hc _ _ _ _ ha, rfl⟩
  simp only [conditionValue, Option.bind_eq_bind, Option.bind_eq_some_iff] at h ⊢
  obtain ⟨⟨kind, mid⟩, hkind, hv⟩ := h
  refine ⟨(kind, mid ++ more), extends_word 4 _ _ _ _ hkind, ?_⟩
  match kind, hv with
  | 0, hv => exact held extends_string .raw hv
  | 1, hv => exact held extends_bool .bool hv
  | 2, hv => exact held extends_int64 .int hv
  | 3, hv => exact held extends_word64 .uint hv
  | 4, hv => exact held extends_string .text hv
  | _ + 5, hv => simp at hv

theorem extends_condition : condition.Extends := by
  refine extends_map (extends_pair extends_string (extends_pair extends_string ?_)) _ _
  refine extends_pair extends_string (extends_pair (extends_option extends_member) ?_)
  refine extends_pair extends_conditionValue (extends_pair (extends_option extends_string) ?_)
  exact extends_pair (extends_option extends_string) (extends_option extends_member)

theorem extends_transition : transition.Extends := by
  refine extends_map (extends_pair extends_string (extends_pair extends_string ?_)) _ _
  exact extends_pair extends_string (extends_option extends_condition)

theorem extends_process : process.Extends := by
  refine extends_map (extends_pair extends_string (extends_pair extends_string ?_)) _ _
  refine extends_pair extends_string (extends_pair (extends_list extends_participant) ?_)
  refine extends_pair (extends_list extends_activity) ?_
  refine extends_pair (extends_list extends_activity) ?_
  refine extends_pair (extends_list extends_activity) ?_
  refine extends_pair (extends_list extends_activity) ?_
  refine extends_pair (extends_list extends_activity) ?_
  refine extends_pair (extends_list extends_gateway) (extends_pair (extends_list extends_gateway) ?_)
  refine extends_pair (extends_list extends_transition) ?_
  exact extends_pair (extends_table extends_string) (extends_list extends_defaultTransition)

theorem extends_document : document.Extends :=
  extends_map (extends_pair extends_model (extends_list extends_process)) _ _

end Artifact

/-! ## Documents -/

namespace Document

/-- **A document reads back from its bytes, whatever follows them, and the bytes cut off
anywhere are no document.** -/
theorem ofBytes_toBytes {d : Document} (h : Fits d) :
    (∀ rest, ofBytes (d.toBytes ++ rest) = .ok d) ∧
      ∀ front, front <+: d.toBytes → front ≠ d.toBytes →
        ∃ message, ofBytes front = .error (.decode message) := by
  have hback := Artifact.readsBack_document d h
  refine ⟨fun rest => ofBytes_toBytes_append hback rest, ?_⟩
  rintro front ⟨rest, hcut⟩ hne
  have hrest : rest ≠ [] := by
    rintro rfl
    exact hne (by simpa using hcut)
  have hnone : Artifact.document.decode front = none :=
    Codec.decode_of_cut Artifact.extends_document hback hcut hrest
  exact ⟨"no document in the bytes", by rw [ofBytes, hnone]⟩

/-- A document with numbers at the ends of their ranges and texts beyond ASCII. -/
def negotiation : Document where
  model := {
    id := "Collaboration"
    name := "Größe 😀 \"quoted\""
    version := ⟨4294967295, 250, 251⟩
    isPrivate := true
    dataStoreFields := [⟨"PROCESS_INSTANCE", "agreement", .contractAddress⟩] }
  processes := [{
    id := "P"
    name := ""
    interface := "Agreement"
    participants := [⟨"Lane", "Buyer", ["T"], some false, Table.ofList [("b", "2"), ("a", "1")]⟩]
    transitions := [⟨"F", "G", "T", some
      ⟨"", "amount", "1", some .lt, .int (-9223372036854775808), none, some "limit",
        some .int256⟩⟩]
    activityMap := Table.ofList [("T", "Review")] }]

/-- The document fits, reads back before other bytes, and is not found in its first half. -/
theorem ofBytes_toBytes_negotiation :
    Fits negotiation ∧ ofBytes (negotiation.toBytes ++ [255, 0]) = .ok negotiation ∧
      ∃ message, ofBytes (negotiation.toBytes.take 90) = .error (.decode message) := by
  have hfits : Fits negotiation := by decide
  have hcut : negotiation.toBytes.take 90 ≠ negotiation.toBytes := by decide +kernel
  obtain ⟨hback, hnone⟩ := ofBytes_toBytes hfits
  exact ⟨hfits, hback [255, 0], hnone _ (List.take_prefix 90 _) hcut⟩

end Document

end BpmnModel
