import BpmnModel.Command.Compile
import BpmnModel.Files.Disk
import BpmnModel.Proofs.Session

/-!
# The command agrees with a session

The compile command reads its files, reads the tree of the text and loads it, each step with an exit
of its own.  What it leaves behind, on the disk and for its caller, is told here by what a session
with the same settings would say of the whole text.

## Main definitions

* `Disk.HoldsText d path text` — the file at the path holds the text.
* `CompileOptions.Loads options d text settings` — the document and the settings that a run finds.
* `CompileOptions.Obtains d reading there failure` — reading finds what is there, or fails.
* `CompileOptions.Agrees options d report d'` — the run that begins with the disk `d` and ends with
  the disk `d'` agrees with a session.

## Main statements

* `CompileOptions.run_agrees` — every run does.
-/

namespace BpmnModel

/-- The file at the path holds the text. -/
def Disk.HoldsText (d : Disk) (path text : String) : Prop :=
  ∃ bytes, d.read path = .ok bytes ∧ Codec.ofUtf8? bytes = some text

theorem Disk.HoldsText.unique {d : Disk} {path text text' : String} (h : d.HoldsText path text)
    (h' : d.HoldsText path text') : text = text' := by
  obtain ⟨bytes, hread, htext⟩ := h
  obtain ⟨bytes', hread', htext'⟩ := h'
  obtain rfl := Except.ok.inj (hread.symm.trans hread')
  exact Option.some.inj (htext.symm.trans htext')

namespace CompileOptions

variable {o : CompileOptions} {d d' : Disk} {s : Settings} {text : String} {document : Document}
variable {report : Report}

/-! ## What a run should come to -/

/-- The settings of a run: those of the file that is named, or the standard ones. -/
def HasSettings (o : CompileOptions) (d : Disk) (s : Settings) : Prop :=
  match o.settingsPath with
  | none => s = .standard
  | some path => ∃ json, d.HoldsText path json ∧ Settings.ofText json = .ok s

/-- The text of the document and the settings, where both can be had. -/
structure Loads (o : CompileOptions) (d : Disk) (text : String) (s : Settings) : Prop where
  document : d.HoldsText o.documentPath text
  settings : o.HasSettings d s

/-- The outcome that a session with the settings tells for the text, and the session after it. -/
def session (s : Settings) (text : String) : Except Error Unit × Session :=
  (Session.start { settings := s }).loadText text

/-- A run that fails with the exit code: it prints nothing and leaves the disk as it was. -/
structure Fails (code : Nat) (d : Disk) (report : Report) (d' : Disk) : Prop where
  exitCode : report.exitCode = code
  output : report.output = ""
  disk : d' = d

/-- A run that prints the document and, on request, saves it.  A device takes the bytes and holds
nothing. -/
structure Prints (o : CompileOptions) (d : Disk) (document : Document) (report : Report)
    (d' : Disk) : Prop where
  output : report.output =
    (match o.format with
      | .summary => document.summary
      | .json => document.json) ++ "\n"
  kept : o.artifactPath = none → report.exitCode = 0 ∧ d' = d
  saved : ∀ path, o.artifactPath = some path →
    (report.exitCode = 0 ∧ d.write path document.toBytes = .ok d' ∧
      (d'.read path = .ok document.toBytes ∨ d.IsDevice path)) ∨
    (report.exitCode = 1 ∧ d' = d ∧ ∃ fault, d.write path document.toBytes = .error fault)

/-- A run agrees with a session: it fails with 1 where there is nothing to load, with 2 where the
session refuses the text, and prints and saves the document that the session shows.  It never finds
a session without one. -/
structure Agrees (o : CompileOptions) (d : Disk) (report : Report) (d' : Disk) : Prop where
  unloaded : (∀ text s, ¬o.Loads d text s) → Fails 1 d report d'
  refused : ∀ text s e, o.Loads d text s → (session s text).1 = .error e → Fails 2 d report d'
  printed : ∀ text s, o.Loads d text s → (session s text).1 = .ok () →
    ∃ document, (session s text).2.document = some document ∧ o.Prints d document report d'
  documented : report.errors ≠ noDocument.errors

/-! ## What is told on the standard error -/

theorem fault_errors_ne (code : Nat) {message : String} (h : message.toList.head? = some 'F') :
    (fault code message).errors ≠ noDocument.errors := by
  intro heq
  have htext : "\nError: " ++ message ++ "\n" =
      "\nError: " ++ "Parser returned no model" ++ "\n" := heq
  rw [String.append_left_inj, String.append_right_inj] at htext
  -- what is left are the messages, and these begin with different letters
  simp [htext] at h

theorem refusal_errors_ne (e : Error) : (refusal e).errors ≠ noDocument.errors := by
  intro heq
  -- behind the first word stands the status, and no colon
  have hsixth := congrArg (fun text => text.toList[6]?) heq
  simp [refusal, noDocument, fault, Report.failed] at hsixth

theorem announcement_ne (path : String) :
    "Wrote artifact to '" ++ path ++ "'\n" ≠ noDocument.errors := by
  intro heq
  have hfirst := congrArg (fun text => text.toList[0]?) heq
  simp [noDocument, fault, Report.failed] at hfirst

/-! ## Reading files -/

theorem run_bind_of_eq {σ α β : Type} {x : StateM σ α} {f : α → StateM σ β} {w w' : σ} {a : α}
    (h : x.run w = (a, w')) : (x >>= f).run w = (f a).run w' := by
  rw [StateT.run_bind, h]
  rfl

/-- Reading obtains something that is there, or fails where there is no such thing.  Either way the
disk stays as it was. -/
def Obtains {α ε : Type} (d : Disk) (reading : StateM Disk (Except ε α)) (there : α → Prop)
    (failure : ε → Prop) : Prop :=
  (∃ a, there a ∧ reading.run d = (.ok a, d)) ∨
    (∀ a, ¬there a) ∧ ∃ e, failure e ∧ reading.run d = (.error e, d)

theorem Obtains.mapError {α ε ε' : Type} {reading : StateM Disk (Except ε α)} {there : α → Prop}
    {failure : ε → Prop} {failure' : ε' → Prop} {f : ε → ε'}
    (h : Obtains d reading there failure) (hf : ∀ e, failure e → failure' (f e)) :
    Obtains d (do return (← reading).mapError f) there failure' := by
  rcases h with ⟨a, ha, hrun⟩ | ⟨hnone, e, he, hrun⟩
  · exact .inl ⟨a, ha, by rw [run_bind_of_eq hrun]; rfl⟩
  · exact .inr ⟨hnone, f e, hf e he, by rw [run_bind_of_eq hrun]; rfl⟩

theorem obtains_readText (d : Disk) (path : String) :
    Obtains d (Disk.files.readText path) (d.HoldsText path) fun _ => True := by
  rw [Obtains, Files.readText, run_bind_of_eq (Disk.run_read d path)]
  cases hread : d.read path with
  | error cause => exact .inr ⟨by simp [Disk.HoldsText, hread], cause, trivial, rfl⟩
  | ok bytes =>
    cases htext : Codec.ofUtf8? bytes with
    | some text => exact .inl ⟨text, ⟨bytes, hread, htext⟩, by simp only [htext]; rfl⟩
    | none =>
      exact .inr ⟨by simp [Disk.HoldsText, hread, htext], _, trivial, by simp only [htext]; rfl⟩

theorem obtains_load (d : Disk) (path : String) :
    Obtains d (Settings.load Disk.files path)
      (fun s => ∃ json, d.HoldsText path json ∧ Settings.ofText json = .ok s) fun _ => True := by
  rw [Settings.load]
  rcases obtains_readText d path with ⟨json, hjson, hrun⟩ | ⟨hnone, cause, -, hrun⟩
  · rw [Obtains, run_bind_of_eq hrun]
    cases hs : Settings.ofText json with
    | ok s => exact .inl ⟨s, ⟨json, hjson, hs⟩, by simp only [hs]; rfl⟩
    | error e =>
      refine .inr ⟨?_, e, trivial, by simp only [hs]; rfl⟩
      rintro s ⟨json', hjson', hs'⟩
      simp [hjson'.unique hjson, hs] at hs'
  · rw [Obtains, run_bind_of_eq hrun]
    exact .inr ⟨fun s ⟨json, hjson, _⟩ => hnone json hjson, _, trivial, rfl⟩

/-- The report of something that could not be read. -/
def IsFault (report : Report) : Prop :=
  ∃ message, message.toList.head? = some 'F' ∧ report = fault 1 message

theorem obtains_readDocument (o : CompileOptions) (d : Disk) :
    Obtains d (readDocument Disk.files o) (d.HoldsText o.documentPath) IsFault :=
  (obtains_readText d o.documentPath).mapError fun _ _ => ⟨_, by simp, rfl⟩

theorem obtains_readSettings (o : CompileOptions) (d : Disk) :
    Obtains d (readSettings Disk.files o) (o.HasSettings d) IsFault := by
  rw [readSettings]
  cases hpath : o.settingsPath with
  | none => exact .inl ⟨.standard, by simp [HasSettings, hpath], rfl⟩
  | some path =>
    have hhas : o.HasSettings d = fun s =>
        ∃ json, d.HoldsText path json ∧ Settings.ofText json = .ok s := by
      funext s
      simp only [HasSettings, hpath]
    rw [hhas]
    exact (obtains_load d path).mapError fun _ _ => ⟨_, by simp, rfl⟩

theorem HasSettings.unique {s s' : Settings} (h : o.HasSettings d s) (h' : o.HasSettings d s') :
    s = s' := by
  rw [HasSettings] at h h'
  cases hpath : o.settingsPath with
  | none =>
    simp only [hpath] at h h'
    rw [h, h']
  | some path =>
    simp only [hpath] at h h'
    obtain ⟨json, hjson, hs⟩ := h
    obtain ⟨json', hjson', hs'⟩ := h'
    obtain rfl := hjson.unique hjson'
    exact Except.ok.inj (hs.symm.trans hs')

/-! ## Compiling -/

/-- What a tree is refused for is the fault of the document. -/
theorem status_of_compile {c : Compiler} {root : Element} {e : Error}
    (h : c.compile root = .error e) : e.status = 400 := by
  rcases Compiler.cause_of_compile h with ⟨cause, rfl⟩ | ⟨cause, rfl⟩ <;> rfl

theorem compileText_of_xml_error {cause : XmlError} (h : Xml.read text = .error cause) :
    compileText s text = .error (fault 2 ("Failed to read XML: " ++ cause.message)) := by
  rw [compileText, h]
  rfl

theorem compileText_of_error {root : Element} {e : Error} (hread : Xml.read text = .ok root)
    (h : Compiler.compile { settings := s } root = .error e) :
    compileText s text = .error (refusal e) := by
  simp only [compileText, hread, Except.mapError, bind, Except.bind,
    Session.loadTree_of_error (s := .start { settings := s }) h]

theorem compileText_of_ok {root : Element} (hread : Xml.read text = .ok root)
    (h : Compiler.compile { settings := s } root = .ok document) :
    compileText s text = .ok document := by
  simp only [compileText, hread, Except.mapError, bind, Except.bind,
    Session.loadTree_of_ok (s := .start { settings := s }) h]
  rfl

theorem session_of_xml_error {cause : XmlError} (h : Xml.read text = .error cause) :
    (session s text).1 = .error (.xml cause) := by
  rw [session, Session.loadText_of_error h]

theorem session_of_error {root : Element} {e : Error} (hread : Xml.read text = .ok root)
    (h : Compiler.compile { settings := s } root = .error e) :
    (session s text).1 = .error e := by
  rw [session, Session.loadText_of_ok hread,
    Session.loadTree_of_error (s := .start { settings := s }) h]

theorem session_of_ok {root : Element} (hread : Xml.read text = .ok root)
    (h : Compiler.compile { settings := s } root = .ok document) :
    (session s text).1 = .ok () ∧ (session s text).2.document = some document := by
  rw [session, Session.loadText_of_ok hread,
    Session.loadTree_of_ok (s := .start { settings := s }) h]
  exact ⟨rfl, rfl⟩

/-- **The command and a session come to the same**, and the command finds the document that it
has loaded. -/
theorem compileText_session (s : Settings) (text : String) :
    (∃ document, (session s text).1 = .ok () ∧ (session s text).2.document = some document ∧
        compileText s text = .ok document) ∨
      ∃ e report, (session s text).1 = .error e ∧ compileText s text = .error report ∧
        report.exitCode = 2 ∧ report.output = "" ∧ report.errors ≠ noDocument.errors := by
  cases hread : Xml.read text with
  | error cause =>
    exact .inr ⟨.xml cause, _, session_of_xml_error hread, compileText_of_xml_error hread, rfl,
      rfl, fault_errors_ne 2 (by simp)⟩
  | ok root =>
    cases hd : Compiler.compile { settings := s } root with
    | error e =>
      exact .inr ⟨e, refusal e, session_of_error hread hd, compileText_of_error hread hd,
        by simp [refusal, Report.failed, status_of_compile hd], rfl, refusal_errors_ne e⟩
    | ok document =>
      exact .inl ⟨document, (session_of_ok hread hd).1, (session_of_ok hread hd).2,
        compileText_of_ok hread hd⟩

/-! ## Printing and saving -/

theorem run_save (d : Disk) (document : Document) (path : String) :
    (document.save Disk.files path).run d =
      match d.write path document.toBytes with
      | .error cause => (.error (.ofFault path cause), d)
      | .ok d' => (.ok (), d') := by
  have hrun := Disk.run_write d path document.toBytes
  cases hwrite : d.write path document.toBytes with
  | error cause =>
    rw [hwrite] at hrun
    rw [Document.save, run_bind_of_eq hrun]
    rfl
  | ok d' =>
    rw [hwrite] at hrun
    rw [Document.save, run_bind_of_eq hrun]
    rfl

theorem run_saveArtifact (o : CompileOptions) (d : Disk) (document : Document) :
    o.Prints d document ((saveArtifact Disk.files o document).run d).1
        ((saveArtifact Disk.files o document).run d).2 ∧
      ((saveArtifact Disk.files o document).run d).1.errors ≠ noDocument.errors := by
  have hformat : o.format.render document ++ "\n" =
      (match o.format with
        | .summary => document.summary
        | .json => document.json) ++ "\n" := rfl
  rw [saveArtifact]
  cases hpath : o.artifactPath with
  | none =>
    refine ⟨⟨hformat, fun _ => ⟨rfl, rfl⟩, by simp [hpath]⟩, ?_⟩
    show "" ≠ noDocument.errors
    simp [noDocument, fault, Report.failed]
  | some path =>
    have hrun := run_save d document path
    cases hwrite : d.write path document.toBytes with
    | error cause =>
      rw [hwrite] at hrun
      simp only [run_bind_of_eq hrun]
      refine ⟨⟨hformat, by simp [hpath], fun path' hpath' => .inr ⟨rfl, rfl, ?_⟩⟩,
        fault_errors_ne 1 (by simp)⟩
      obtain rfl := Option.some.inj (hpath.symm.trans hpath')
      exact ⟨cause, hwrite⟩
    | ok d' =>
      rw [hwrite] at hrun
      simp only [run_bind_of_eq hrun]
      refine ⟨⟨hformat, by simp [hpath], fun path' hpath' => .inl ⟨rfl, ?_⟩⟩,
        announcement_ne path⟩
      obtain rfl := Option.some.inj (hpath.symm.trans hpath')
      exact ⟨hwrite, (Disk.read_of_write hwrite).imp id And.right⟩

/-! ## The command -/

theorem Loads.unique {text' : String} {s' : Settings} (h : o.Loads d text s)
    (h' : o.Loads d text' s') : text = text' ∧ s = s' :=
  ⟨h.document.unique h'.document, h.settings.unique h'.settings⟩

/-- Where there is nothing to load, a failure is all that a session leaves to agree with. -/
theorem agrees_of_unloaded (hnone : ∀ text s, ¬o.Loads d text s) (hfault : IsFault report) :
    o.Agrees d report d := by
  obtain ⟨message, hmessage, rfl⟩ := hfault
  exact {
    unloaded := fun _ => ⟨rfl, rfl, rfl⟩
    refused := fun text s _ hload => absurd hload (hnone text s)
    printed := fun text s hload => absurd hload (hnone text s)
    documented := fault_errors_ne 1 hmessage }

theorem agrees_of_refused {e : Error} (hload : o.Loads d text s)
    (hsession : (session s text).1 = .error e) (hcode : report.exitCode = 2)
    (houtput : report.output = "") (herrors : report.errors ≠ noDocument.errors) :
    o.Agrees d report d where
  unloaded hnone := absurd hload (hnone text s)
  refused _ _ _ _ _ := ⟨hcode, houtput, rfl⟩
  printed text' s' hload' hok := by
    obtain ⟨rfl, rfl⟩ := hload.unique hload'
    simp [hsession] at hok
  documented := herrors

theorem agrees_of_printed (hload : o.Loads d text s) (hsession : (session s text).1 = .ok ())
    (hdocument : (session s text).2.document = some document)
    (hprints : o.Prints d document report d') (herrors : report.errors ≠ noDocument.errors) :
    o.Agrees d report d' where
  unloaded hnone := absurd hload (hnone text s)
  refused text' s' e hload' herror := by
    obtain ⟨rfl, rfl⟩ := hload.unique hload'
    simp [hsession] at herror
  printed text' s' hload' _ := by
    obtain ⟨rfl, rfl⟩ := hload.unique hload'
    exact ⟨document, hdocument, hprints⟩
  documented := herrors

/-- **Every run of the command agrees with a session** that is started with its settings and given
the whole text of its document. -/
theorem run_agrees (o : CompileOptions) (d : Disk) :
    o.Agrees d ((o.run Disk.files).run d).1 ((o.run Disk.files).run d).2 := by
  rw [run]
  rcases obtains_readDocument o d with ⟨text, htext, hrun⟩ | ⟨hnone, report, hfault, hrun⟩
  · rw [run_bind_of_eq hrun]
    -- neither reading changes the disk, so that the second finds what a session would be given
    rcases obtains_readSettings o d with ⟨s, hs, hrun⟩ | ⟨hnone, report, hfault, hrun⟩
    · simp only [run_bind_of_eq hrun]
      rcases compileText_session s text with ⟨document, hok, hdocument, htext'⟩ |
        ⟨e, report, herror, htext', hcode, houtput, herrors⟩
      · simp only [htext']
        obtain ⟨hprints, herrors⟩ := run_saveArtifact o d document
        exact agrees_of_printed ⟨htext, hs⟩ hok hdocument hprints herrors
      · simp only [htext']
        exact agrees_of_refused ⟨htext, hs⟩ herror hcode houtput herrors
    · simp only [run_bind_of_eq hrun]
      exact agrees_of_unloaded (fun text s h => hnone s h.settings) hfault
  · rw [run_bind_of_eq hrun]
    exact agrees_of_unloaded (fun text s h => hnone text h.document) hfault

end CompileOptions

end BpmnModel
