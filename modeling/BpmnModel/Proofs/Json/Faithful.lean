import Mathlib.Data.Prod.Basic
import BpmnModel.Json.Document
import BpmnModel.Proofs.Json.Printed

/-!
# The JSON form of a document is unambiguous

Two documents with the same text are the same document: no text in a record can pass for the end
of a literal, no number for another one, and nothing that is there for something absent.  Each
record has a faithful form since its fields have, and the names of the fields are fixed.

## Main definitions

* `Json.Faithful f` — the values of `f` can be printed, and no two things have the same one.
* `Json.FaithfulRow f` — the same for the members of an object.

## Main statements

* `Json.Faithful.ofRow` — an object is faithful when its members are.
* `Document.json_eq_iff` — documents with the same text are the same.
-/

namespace BpmnModel

namespace Json

/-! ## Faithful forms -/

/-- The values can be printed, and no two things have the same one. -/
structure Faithful {α : Type} (f : α → Json) : Prop where
  written : ∀ a, (f a).Written
  injective : Function.Injective f

/-- The members can be printed, and no two things have the same ones. -/
structure FaithfulRow {α : Type} (f : α → List (String × Json)) : Prop where
  written : ∀ a, ∀ m ∈ f a, m.2.Written
  injective : Function.Injective f

variable {α β : Type}

theorem escape_injective : Function.Injective escape := by
  intro cs ds h
  have hread : unescape (escape cs) = unescape (escape ds) := by rw [h]
  simpa using hread

theorem toDigits_injective : Function.Injective (Nat.toDigits 10) := by
  intro m n h
  have hread : Text.digits? (Nat.toDigits 10 m) = Text.digits? (Nat.toDigits 10 n) := by rw [h]
  simpa using hread

namespace Faithful

theorem comp {f : β → Json} {g : α → β} (hf : Faithful f) (hg : Function.Injective g) :
    Faithful fun a => f (g a) :=
  ⟨fun a => hf.written (g a), hf.injective.comp hg⟩

/-! ### Literals -/

theorem bool : Faithful Json.bool :=
  ⟨.bool, fun _ _ h => Json.bool.inj h⟩

theorem ofText : Faithful Json.ofText where
  written s := .string s.toList
  injective s t h := by
    have hread : text? (Json.ofText s) = text? (Json.ofText t) := by rw [h]
    simpa using hread

theorem ofNat : Faithful Json.ofNat :=
  ⟨fun n => .number ⟨n, .inl rfl⟩, fun _ _ h => toDigits_injective (Json.number.inj h)⟩

/-- A minus sign is no digit, so it tells the negative numbers from the others. -/
theorem ofInt : Faithful Json.ofInt where
  written n := by
    rw [Json.ofInt]
    split
    · exact .number ⟨n.natAbs, .inr rfl⟩
    · exact .number ⟨n.natAbs, .inl rfl⟩
  injective m n h := by
    have hminus : ∀ k l : ℕ, '-' :: Nat.toDigits 10 k ≠ Nat.toDigits 10 l := by
      intro k l hdigits
      have hdigit : '-'.isDigit = true := (hdigits ▸ Text.decimal_toDigits l).isDigit_head
      exact absurd hdigit (by decide)
    have hliteral := Json.number.inj h
    split at hliteral <;> split at hliteral
    · have := toDigits_injective (List.cons.inj hliteral).2
      omega
    · exact absurd hliteral (hminus _ _)
    · exact absurd hliteral.symm (hminus _ _)
    · have := toDigits_injective hliteral
      omega

theorem ofMember [DecidableEq α] [Closed α] : Faithful (Json.ofMember (α := α)) :=
  ofText.comp Closed.symbol_injective

/-! ### Lists and what may be absent -/

theorem ofList {f : α → Json} (hf : Faithful f) : Faithful (Json.ofList f) where
  written as := by
    refine .array fun v hv => ?_
    obtain ⟨a, -, rfl⟩ := List.mem_map.mp hv
    exact hf.written a
  injective _ _ h := List.map_injective_iff.mpr hf.injective (Json.array.inj h)

/-- What is there must not look like what is absent. -/
theorem ofOption {f : α → Json} (hf : Faithful f) (hnull : ∀ a, f a ≠ .null) :
    Faithful (Json.ofOption f) where
  written o := by
    cases o with
    | none => exact .null
    | some a => exact hf.written a
  injective o p h := by
    cases o with
    | none =>
      cases p with
      | none => rfl
      | some b => exact absurd h.symm (hnull b)
    | some a =>
      cases p with
      | none => exact absurd h (hnull a)
      | some b => exact congrArg some (hf.injective h)

theorem ofOptionalText : Faithful (Json.ofOption Json.ofText) :=
  .ofOption .ofText fun _ => by simp [Json.ofText]

theorem ofOptionalMember [DecidableEq α] [Closed α] :
    Faithful (Json.ofOption (Json.ofMember (α := α))) :=
  .ofOption .ofMember fun _ => by simp [Json.ofMember, Json.ofText]

/-! ### Objects -/

/-- The names in an object are escaped, so that they stay apart. -/
theorem ofRow {f : α → List (String × Json)} (hf : FaithfulRow f) :
    Faithful fun a => record (f a) where
  written a := by
    refine .object (fun m hm => ?_) fun m hm => ?_
    · obtain ⟨n, -, rfl⟩ := List.mem_map.mp hm
      exact ⟨n.1.toList, rfl⟩
    · obtain ⟨n, hn, rfl⟩ := List.mem_map.mp hm
      exact hf.written a n hn
  injective a b h := by
    have hmember : Function.Injective fun m : String × Json => (escape m.1.toList, m.2) :=
      (escape_injective.comp fun _ _ => String.toList_injective).prodMap Function.injective_id
    exact hf.injective (List.map_injective_iff.mpr hmember (Json.object.inj h))

theorem ofTable : Faithful Json.ofTable := by
  have hentries : FaithfulRow fun t : Table String =>
      t.entries.map fun e => (e.1, Json.ofText e.2) := by
    constructor
    · intro t m hm
      obtain ⟨e, -, rfl⟩ := List.mem_map.mp hm
      exact ofText.written e.2
    · intro t u h
      have hentry : Function.Injective fun e : String × String => (e.1, Json.ofText e.2) :=
        Function.injective_id.prodMap ofText.injective
      have hsame : t.entries = u.entries := List.map_injective_iff.mpr hentry h
      obtain ⟨_, _⟩ := t
      obtain ⟨_, _⟩ := u
      obtain rfl := hsame
      rfl
  exact ofRow hentries

/-- A record has a faithful form when its fields have, and nothing else belongs to it. -/
theorem ofFields {f : β → List (String × Json)} (hf : FaithfulRow f) (fields : α → β)
    (hfields : Function.Injective fields) :
    Faithful fun a => record (f (fields a)) :=
  (ofRow hf).comp hfields

end Faithful

namespace FaithfulRow

/-- The last field of a record. -/
theorem last {f : α → Json} (name : String) (hf : Faithful f) :
    FaithfulRow fun a => [(name, f a)] where
  written a := by simpa using hf.written a
  injective a b h := hf.injective (by simpa using h)

/-- One more field in front of the others. -/
theorem cons {f : α → Json} {g : β → List (String × Json)} (name : String) (hf : Faithful f)
    (hg : FaithfulRow g) : FaithfulRow fun p : α × β => (name, f p.1) :: g p.2 where
  written p := List.forall_mem_cons.mpr ⟨hf.written p.1, hg.written p.2⟩
  injective p q h := by
    obtain ⟨hmember, hothers⟩ := List.cons.inj h
    exact Prod.ext (hf.injective (Prod.mk.inj hmember).2) (hg.injective hothers)

end FaithfulRow

theorem name_eq_of_record {s t : String} {v w : Json} (h : record [(s, v)] = record [(t, w)]) :
    s = t := by
  have hmember := (List.cons.inj (Json.object.inj h)).1
  exact String.toList_injective (escape_injective (Prod.mk.inj hmember).1)

/-! ## The records of a document -/

theorem faithful_version : Faithful Version.toJson := by
  have hnumbers : Function.Injective fun v : Version => [v.major, v.minor, v.patch] := by
    rintro ⟨_, _, _⟩ ⟨_, _, _⟩ h
    simpa using h
  have hword := Faithful.ofNat.comp fun _ _ => UInt32.toNat_inj.mp
  exact hword.ofList.comp hnumbers

theorem faithful_dataStoreField : Faithful DataStoreField.toJson := by
  have hrow := FaithfulRow.cons "data_storage_id" .ofText <|
    .cons "data_path" .ofText <|
    .last "parameter_type" (.ofMember (α := ParameterType))
  refine .ofFields hrow
    (fun f : DataStoreField => (f.dataStorageId, f.dataPath, f.parameterType)) ?_
  rintro ⟨⟩ ⟨⟩ h
  simpa using h

theorem faithful_model : Faithful Model.toJson := by
  have hrow := FaithfulRow.cons "id" .ofText <|
    .cons "name" .ofText <|
    .cons "version" faithful_version <|
    .cons "private" .bool <|
    .last "data_store_fields" (.ofList faithful_dataStoreField)
  refine .ofFields hrow
    (fun m : Model => (m.id, m.name, m.version, m.isPrivate, m.dataStoreFields)) ?_
  rintro ⟨⟩ ⟨⟩ h
  simpa using h

theorem faithful_participant : Faithful Participant.toJson := by
  have hrow := FaithfulRow.cons "id" .ofText <|
    .cons "name" .ofText <|
    .cons "tasks" (.ofList .ofText) <|
    .cons "conditional_performer" (.ofOption .bool fun _ => by simp) <|
    .last "properties" .ofTable
  refine .ofFields hrow (fun p : Participant =>
    (p.id, p.name, p.tasks, p.conditionalPerformer, p.properties)) ?_
  rintro ⟨⟩ ⟨⟩ h
  simpa using h

theorem faithful_dataMapping : Faithful DataMapping.toJson := by
  have hrow := FaithfulRow.cons "id" .ofText <|
    .cons "direction" (.ofMember (α := Direction)) <|
    .cons "data_path" .ofText <|
    .last "data_storage_id" .ofText
  refine .ofFields hrow
    (fun m : DataMapping => (m.id, m.direction, m.dataPath, m.dataStorageId)) ?_
  rintro ⟨⟩ ⟨⟩ h
  simpa using h

/-- Mappings that are absent are null, and an empty list of them is an empty array. -/
theorem faithful_activity : Faithful Activity.toJson := by
  have hmappings : Faithful (Json.ofOption (Json.ofList DataMapping.toJson)) :=
    .ofOption (.ofList faithful_dataMapping) fun _ => by simp [Json.ofList]
  have hrow := FaithfulRow.cons "id" .ofText <|
    .cons "name" .ofText <|
    .cons "kind" (.ofMember (α := ActivityKind)) <|
    .cons "assignee" .ofText <|
    .cons "activity_type" (.ofMember (α := ActivityType)) <|
    .cons "task_type" (.ofMember (α := TaskType)) <|
    .cons "behavior" (.ofMember (α := TaskBehavior)) <|
    .cons "multi_instance" .bool <|
    .cons "application" .ofText <|
    .cons "sub_process_model_id" .ofText <|
    .cons "sub_process_definition_id" .ofText <|
    .last "data_mappings" hmappings
  refine .ofFields hrow (fun a : Activity => (a.id, a.name, a.kind, a.assignee, a.activityType,
    a.taskType, a.behavior, a.multiInstance, a.application, a.subProcessModelId,
    a.subProcessDefinitionId, a.dataMappings)) ?_
  rintro ⟨⟩ ⟨⟩ h
  simpa using h

theorem faithful_gateway : Faithful Gateway.toJson := by
  have hrow := FaithfulRow.cons "id" .ofText <|
    .cons "gateway_type" (.ofMember (α := GatewayType)) <|
    .cons "incoming" (.ofList .ofText) <|
    .cons "outgoing" (.ofList .ofText) <|
    .last "default" .ofOptionalText
  refine .ofFields hrow
    (fun g : Gateway => (g.id, g.gatewayType, g.incoming, g.outgoing, g.fallback)) ?_
  rintro ⟨⟩ ⟨⟩ h
  simpa using h

theorem faithful_defaultTransition : Faithful DefaultTransition.toJson := by
  have hrow := FaithfulRow.cons "gateway" .ofText <|
    .cons "transition" .ofText <|
    .last "activity" .ofText
  refine .ofFields hrow
    (fun d : DefaultTransition => (d.gateway, d.transition, d.activity)) ?_
  rintro ⟨⟩ ⟨⟩ h
  simpa using h

/-- The kind of a value is the name of its only member, so equal payloads stay apart. -/
theorem faithful_conditionValue : Faithful ConditionValue.toJson := by
  have hraw := Faithful.ofRow (.last "Raw" .ofText)
  have hbool := Faithful.ofRow (.last "Bool" .bool)
  have hint := (Faithful.ofRow (.last "Int" .ofInt)).comp fun _ _ => Int64.toInt_inj.mp
  have huint := (Faithful.ofRow (.last "Uint" .ofNat)).comp fun _ _ => UInt64.toNat_inj.mp
  have htext := Faithful.ofRow (.last "Text" .ofText)
  constructor
  · intro v
    cases v with
    | raw s => exact hraw.written s
    | bool b => exact hbool.written b
    | int n => exact hint.written n
    | uint n => exact huint.written n
    | text s => exact htext.written s
  · intro v w h
    cases v <;> cases w
    case raw.raw s t => rw [hraw.injective h]
    case bool.bool a b => rw [hbool.injective h]
    case int.int m n => rw [hint.injective h]
    case uint.uint m n => rw [huint.injective h]
    case text.text s t => rw [htext.injective h]
    -- values of two kinds have different names
    all_goals exact absurd (name_eq_of_record h) (by decide)

example : (([.raw "5", .text "5", .int 5, .uint 5] : List ConditionValue).map
    fun v => v.toJson.pretty).Nodup := by decide +kernel

theorem faithful_condition : Faithful Condition.toJson := by
  have hrow := FaithfulRow.cons "lh_data_storage_id" .ofText <|
    .cons "lh_data_path" .ofText <|
    .cons "operator" .ofText <|
    .cons "comparator" (.ofOptionalMember (α := Operator)) <|
    .cons "rh_value" faithful_conditionValue <|
    .cons "rh_data_storage_id" .ofOptionalText <|
    .cons "rh_data_path" .ofOptionalText <|
    .last "data_type" (.ofOptionalMember (α := DataType))
  refine .ofFields hrow (fun c : Condition => (c.lhDataStorageId, c.lhDataPath, c.operator,
    c.comparator, c.rhValue, c.rhDataStorageId, c.rhDataPath, c.dataType)) ?_
  rintro ⟨⟩ ⟨⟩ h
  simpa using h

theorem faithful_transition : Faithful Transition.toJson := by
  have hcondition : Faithful (Json.ofOption Condition.toJson) :=
    .ofOption faithful_condition fun _ => by simp [Condition.toJson, record]
  have hrow := FaithfulRow.cons "id" .ofText <|
    .cons "source" .ofText <|
    .cons "target" .ofText <|
    .last "condition" hcondition
  refine .ofFields hrow (fun t : Transition => (t.id, t.source, t.target, t.condition)) ?_
  rintro ⟨⟩ ⟨⟩ h
  simpa using h

theorem faithful_process : Faithful Process.toJson := by
  have hactivities : Faithful (Json.ofList Activity.toJson) := .ofList faithful_activity
  have hgateways : Faithful (Json.ofList Gateway.toJson) := .ofList faithful_gateway
  have hrow := FaithfulRow.cons "id" .ofText <|
    .cons "name" .ofText <|
    .cons "interface" .ofText <|
    .cons "participants" (.ofList faithful_participant) <|
    .cons "tasks" hactivities <|
    .cons "user_tasks" hactivities <|
    .cons "send_tasks" hactivities <|
    .cons "service_tasks" hactivities <|
    .cons "sub_processes" hactivities <|
    .cons "xor_gateways" hgateways <|
    .cons "and_gateways" hgateways <|
    .cons "transitions" (.ofList faithful_transition) <|
    .cons "activity_map" .ofTable <|
    .last "default_transitions" (.ofList faithful_defaultTransition)
  refine .ofFields hrow (fun p : Process => (p.id, p.name, p.interface, p.participants, p.tasks,
    p.userTasks, p.sendTasks, p.serviceTasks, p.subProcesses, p.xorGateways, p.andGateways,
    p.transitions, p.activityMap, p.defaultTransitions)) ?_
  rintro ⟨⟩ ⟨⟩ h
  simpa using h

theorem faithful_document : Faithful Document.toJson := by
  have hrow := FaithfulRow.cons "model" faithful_model <|
    .last "processes" (.ofList faithful_process)
  refine .ofFields hrow (fun d : Document => (d.model, d.processes)) ?_
  rintro ⟨⟩ ⟨⟩ h
  simpa using h

end Json

/-- **Documents with the same text are the same.** -/
theorem Document.json_eq_iff {d e : Document} : d.json = e.json ↔ d = e := by
  have hd : d.toJson.Written := Json.faithful_document.written d
  have he : e.toJson.Written := Json.faithful_document.written e
  calc d.json = e.json
      ↔ d.toJson = e.toJson := Json.pretty_inj hd he
    _ ↔ d = e := Json.faithful_document.injective.eq_iff

end BpmnModel
