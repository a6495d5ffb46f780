import BpmnModel.Proofs.Compile.Children
import BpmnModel.Proofs.Compile.Frame
import BpmnModel.Proofs.Compile.Stages
import BpmnModel.Proofs.Row
import BpmnModel.Proofs.Xml.Place

/-!
# Who performs a user task

The lanes of a process that have a block are its participants, in the order in which they open.  A
user task is performed by the first of them that lists the task itself, so that an outer lane comes
before those that it encloses, and a lane without a block never performs anything.

## Main definitions

* `Lane.StandsAt process place lane` — a lane with a block, and its place in the process.
* `Lane.FirstListing process id place lane` — the first of them that lists a task.
* `Activity.PerformedIn process participants a` — who performs an activity.
* `Process.Staffed settings aliases process p` — the participants of `p` are the lanes of the
  element, and its user tasks are performed by them.

## Main statements

* `Lane.FirstListing.not_lists_above` — no enclosing lane lists the task.
* `Process.staffed_of_read` — a process that has been read.
* `Compiler.staffed_of_compile` — the processes of an accepted document.
-/

namespace BpmnModel

variable {s : Settings} {aliases : List (String × String)} {participants : List Participant}
variable {process root node lane : Element} {place : List Nat} {id : String} {a : Activity}
variable {p q : Process}

/-! ## Lanes and their places -/

namespace Lane

/-- A lane with a block stands at the place, anywhere below a lane set of the process. -/
structure StandsAt (process : Element) (place : List Nat) (lane : Element) : Prop where
  here : process.at? place = some lane
  tag : lane.tag = "lane"
  set : ∃ i rest set, place = i :: rest ∧ process.children[i]? = some set ∧ set.tag = "laneSet"
  block : (Properties.block? lane).isSome

/-- One of the references of the lane itself names the task. -/
def Lists (lane : Element) (id : String) : Prop :=
  id ≠ "" ∧ ∃ ref ∈ lane.children, ref.tag = "flowNodeRef" ∧ ref.text = id

/-- The lane is the first, by its place, of those with a block that list the task. -/
structure FirstListing (process : Element) (id : String) (place : List Nat) (lane : Element) :
    Prop where
  stands : StandsAt process place lane
  lists : Lists lane id
  first : ∀ place' lane', StandsAt process place' lane' → Lists lane' id →
    place' = place ∨ place < place'

/-- The lanes with a block, with their places. -/
def placed (process : Element) : List (List Nat × Element) :=
  (process.placedBelow "laneSet" "lane").filter fun row => (Properties.block? row.2).isSome

theorem mem_placed_iff : (place, lane) ∈ placed process ↔ StandsAt process place lane := by
  rw [placed, List.mem_filter, Element.mem_placedBelow_iff]
  constructor
  · rintro ⟨⟨⟨hhere, htag⟩, hset⟩, hblock⟩
    exact { here := hhere, tag := htag, set := hset, block := hblock }
  · intro h
    exact ⟨⟨⟨h.here, h.tag⟩, h.set⟩, h.block⟩

theorem pairwise_placed (process : Element) :
    (placed process).Pairwise fun a b => a.1 < b.1 :=
  (Element.pairwise_placedBelow process "laneSet" "lane").filter _

theorem map_snd_placed (process : Element) : (placed process).map Prod.snd =
    (lanes process).filter fun lane => (Properties.block? lane).isSome := by
  rw [lanes, ← Element.map_snd_placedBelow process (by decide), List.filter_map]
  rfl

/-- **The participants of a process** are its lanes with a block, place by place. -/
theorem forall₂_placed_of_readAll (h : readAll s process = .ok participants) :
    List.Forall₂ (fun row q => ReadAs s row.2 q) (placed process) participants := by
  have hread := forall₂_of_readAll h
  rwa [← map_snd_placed, List.forall₂_map_left_iff] at hread

/-- A lane that encloses the first one with the task does not list the task. -/
theorem FirstListing.not_lists_above {above : List Nat} {outer : Element}
    (h : FirstListing process id place lane) (habove : above <+: place) (hne : above ≠ place)
    (houter : StandsAt process above outer) : ¬Lists outer id := by
  intro hlists
  have hlt : above < place := Element.lt_of_prefix habove hne
  rcases h.first above outer houter hlists with rfl | hgt
  · exact hne rfl
  · exact List.lt_asymm hlt hgt

end Lane

/-! ## User tasks -/

/-- The activity is performed by the first participant that lists it, which is the first lane of the
process that does. -/
structure Activity.PerformedIn (process : Element) (participants : List Participant)
    (a : Activity) : Prop where
  named : a.id ≠ ""
  participant : ∃ q, FirstWith (fun q => a.id ∈ q.tasks) participants q ∧ a.assignee = q.id
  lane : ∃ place lane, Lane.FirstListing process a.id place lane ∧ a.assignee = lane.id

/-- The participants are the lanes with a block, each once and in the order of their places, and
each user task is performed by one of them. -/
structure Process.Staffed (s : Settings) (aliases : List (String × String)) (process : Element)
    (p : Process) : Prop where
  participants : ∃ rows : List (List Nat × Element), (rows.Pairwise fun a b => a.1 < b.1) ∧
    (∀ place lane, (place, lane) ∈ rows ↔ Lane.StandsAt process place lane) ∧
      List.Forall₂ (fun row q => Lane.ReadAs s row.2 q) rows p.participants
  userTasks : List.Forall₂ (fun node a => a.id = node.id ∧ a.PerformedIn process p.participants)
    (process.flowElements aliases "userTask") p.userTasks

theorem Participant.performs_eq (q : Participant) (id : String) :
    q.performs id = decide (id ∈ q.tasks) := by
  rw [performs, Bool.eq_iff_iff]
  simp

/-- A user task that can be read is performed by the first participant that lists it. -/
theorem Task.assignee_of_readUser (h : readUser s participants node = .ok a) :
    a.id = node.id ∧
      ∃ q, FirstWith (fun q => a.id ∈ q.tasks) participants q ∧ a.assignee = q.id := by
  rw [readUser] at h
  split at h
  · simp at h
  · rename_i q hq
    simp only [Outcome.bind_eq_ok_iff, Outcome.pure_eq_ok_iff] at h
    obtain ⟨properties, -, rfl⟩ := h
    refine ⟨rfl, q, firstWith_iff_find?.mpr ?_, rfl⟩
    simp only [← hq, assignee?, Participant.performs_eq]
    rfl

/-- The first participant that lists a task is that of the first lane that does. -/
theorem Activity.performedIn_of_first (hread : Lane.readAll s process = .ok participants)
    {q : Participant} (hq : FirstWith (fun q => a.id ∈ q.tasks) participants q)
    (hassignee : a.assignee = q.id) : a.PerformedIn process participants := by
  have hlists : ∀ (row : List Nat × Element) q, Lane.ReadAs s row.2 q →
      (Lane.Lists row.2 a.id ↔ a.id ∈ q.tasks) := by
    intro row q hrow
    rw [hrow.tasks, Element.mem_childTexts_iff, Lane.Lists]
  obtain ⟨⟨place, lane⟩, hfirst, hlane⟩ :=
    FirstWith.of_forall₂ (Lane.forall₂_placed_of_readAll hread) hlists hq
  -- the lanes stand in the order of their places, so that the first with the task has the least one
  have hasymm : ∀ a b : List Nat × Element, a.1 < b.1 → ¬b.1 < a.1 := fun _ _ => List.lt_asymm
  obtain ⟨hmem, hmine, hleast⟩ :=
    (firstWith_iff_least (Lane.pairwise_placed process) hasymm).mp hfirst
  refine {
    named := hmine.1
    participant := ⟨q, hq, hassignee⟩
    lane := ⟨place, lane, ?_, hassignee.trans hlane.id⟩ }
  exact {
    stands := Lane.mem_placed_iff.mp hmem
    lists := hmine
    first := by
      intro place' lane' hstands hlists'
      rcases hleast (place', lane') (Lane.mem_placed_iff.mpr hstands) hlists' with hsame | hlt
      · exact .inl (congrArg Prod.fst hsame)
      · exact .inr hlt }

/-! ## Processes -/

theorem Process.staffed_of_read (h : read (.aliased aliases) s process = .ok p) :
    p.Staffed s aliases process := by
  obtain ⟨interface, -, participants, hparticipants, os, hos, defaults, -, rfl⟩ :=
    read_eq_ok_iff.mp h
  refine {
    participants := ⟨Lane.placed process, Lane.pairwise_placed process,
      fun _ _ => Lane.mem_placed_iff, Lane.forall₂_placed_of_readAll hparticipants⟩
    userTasks := (FlowGraph.forall₂_activity hos .userTask).imp fun node a ha => ?_ }
  generalize htag : ActivityKind.userTask.tag = tag at ha
  cases ha with
  | userTask h =>
    obtain ⟨hid, q, hq, hassignee⟩ := Task.assignee_of_readUser h
    exact ⟨hid, Activity.performedIn_of_first hparticipants hq hassignee⟩
  | _ => simp [ActivityKind.tag] at htag

/-- Checking a process touches its transitions only. -/
theorem Process.staffed_of_check {m : Model} (hp : p.Staffed s aliases process)
    (h : p.check s m = .ok q) : q.Staffed s aliases process := by
  obtain ⟨-, rfl⟩ := check_eq_ok_iff.mp h
  exact { participants := hp.participants, userTasks := hp.userTasks }

/-- **The processes of an accepted document are staffed** by their lanes. -/
theorem Compiler.staffed_of_compile {document : Document}
    (h : (Compiler.aliased s aliases).compile root = .ok document) :
    List.Forall₂ (fun process p => Process.Staffed s aliases process p)
      (root.childrenNamed "process") document.processes := by
  rw [aliased_eq, compile_eq_ok_iff] at h
  obtain ⟨-, -, -, ps, hread, hcheck⟩ := h
  refine (Outcome.forall₂_trans hread hcheck).imp ?_
  rintro process q ⟨p, hp, hq⟩
  exact Process.staffed_of_check (Process.staffed_of_read hp) hq

/-- A process with two lane sets.  The outer lane of the first lists a task that its inner lane and
the other set list as well, and a lane without a block lists the last task before its own lane. -/
def Element.offices : Element where
  tag := "process"
  attributes := .ofList [("id", "P")]
  children := [
    { tag := "laneSet"
      children := [
        { tag := "lane", attributes := .ofList [("id", "sales")]
          children := [
            { tag := "childLaneSet"
              children := [
                { tag := "lane", attributes := .ofList [("id", "clerks")]
                  children := [.propertyBlock [], { tag := "flowNodeRef", text := "offer" },
                    { tag := "flowNodeRef", text := "sign" }] },
                { tag := "lane", attributes := .ofList [("id", "guests")]
                  children := [{ tag := "flowNodeRef", text := "pay" }] }] },
            .propertyBlock [("region", "north")], { tag := "flowNodeRef", text := "offer" }] }] },
    { tag := "approval", attributes := .ofList [("id", "sign")] },
    { tag := "userTask", attributes := .ofList [("id", "pay")] },
    { tag := "approval", attributes := .ofList [("id", "offer")] },
    { tag := "laneSet"
      children := [
        { tag := "lane", attributes := .ofList [("id", "bank")]
          children := [.propertyBlock [], { tag := "flowNodeRef" },
            { tag := "flowNodeRef", text := "pay" }, { tag := "flowNodeRef", text := "offer" }] }] }]

/-- The offices are three participants, and each of the three tasks is performed by another one. -/
theorem Compiler.staffed_of_compile_offices :
    ∃ document, (Compiler.aliased {} [("approval", "userTask")]).compile
        (.documentOf [.offices]) = .ok document ∧
      document.processes.map (fun p => (p.participants.map fun q => q.id,
        p.userTasks.map fun a => (a.id, a.assignee))) =
          [(["sales", "clerks", "bank"],
            [("sign", "clerks"), ("pay", "bank"), ("offer", "sales")])] ∧
      List.Forall₂ (fun process p => Process.Staffed {} [("approval", "userTask")] process p)
        ((Element.documentOf [.offices]).childrenNamed "process") document.processes := by
  obtain ⟨document, hdocument, hrecords⟩ := Outcome.exists_of_toOption_map
    (show ((Compiler.aliased {} [("approval", "userTask")]).compile
        (.documentOf [.offices])).toOption.map (fun d => d.processes.map fun p =>
          (p.participants.map fun q => q.id, p.userTasks.map fun a => (a.id, a.assignee))) =
      some [(["sales", "clerks", "bank"],
        [("sign", "clerks"), ("pay", "bank"), ("offer", "sales")])] from by decide +kernel)
  exact ⟨document, hdocument, hrecords, Compiler.staffed_of_compile hdocument⟩

end BpmnModel
