import ResolverPipeline.Cli.Run
import ResolverPipeline.Proofs.FileTree

/-!
What a run leaves of the files that it works on.  All that can fail comes before the one file is opened
that a run may write, so a run which fails leaves no part of an artifact.
-/

namespace ResolverPipeline

theorem run_bind_of_run {σ α β : Type} {x : StateM σ α} {f : α → StateM σ β} {s s' : σ} {a : α}
    (h : x.run s = (a, s')) : (x >>= f).run s = (f a).run s' := by
  rw [StateT.run_bind, h]
  rfl

namespace FileAccess

/-- That a system, asked from a working directory, changes a tree of files as the tree says when it lets
a file be written, and otherwise not at all.  It need not let every file be read or written. -/
structure Honest (base : List String) (files : FileAccess (StateM FileTree)) : Prop where
  read : ∀ path t, ∃ content, (files.readText path).run t = (content, t)
  write : ∀ path text t, (∃ e, (files.writeText path text).run t = (.error e, t)) ∨
    ∃ t', (files.writeText path text).run t = (.ok (), t') ∧ t.write base path text = .ok t'

theorem run_writeText (base : List String) (path text : String) (t : FileTree) :
    ((FileTree.accessFrom base).writeText path text).run t =
      match t.write base path text with
      | .ok t' => (.ok (), t')
      | .error e => (.error e, t) := by
  simp only [writeText, StateT.run_bind, StateT.run_get, pure_bind]
  cases t.write base path text <;> rfl

theorem accessFrom_honest (base : List String) : (FileTree.accessFrom base).Honest base where
  read path t := ⟨t.read base path, rfl⟩
  write path text t := by
    rw [run_writeText]
    cases t.write base path text with
    | ok t' => exact .inr ⟨t', rfl, rfl⟩
    | error e => exact .inl ⟨e, rfl⟩

@[reducible] def readOnly (base : List String) : FileAccess (StateM FileTree) where
  readText := (FileTree.accessFrom base).readText
  writeText _ _ := return .error (.other "Permission denied (os error 13)")

theorem readOnly_honest (base : List String) : (readOnly base).Honest base where
  read := (accessFrom_honest base).read
  write _ _ _ := .inl ⟨_, rfl⟩

end FileAccess

namespace Cli

section Runs

variable {base : List String} {files : FileAccess (StateM FileTree)} {t t' : FileTree}
  {target : Target} {format : OutputFormat} {path : String} {outcome : Outcome} {api : Api}

/-- That the definition at the target's path can be read, and that it compiles to the api. -/
def Target.Yields (files : FileAccess (StateM FileTree)) (t : FileTree) (target : Target)
    (api : Api) : Prop :=
  ∃ format text d, Format.ofPath? target.definition = some format ∧
    ((files.readText target.definition).run t).1 = .ok text ∧
    Definition.parse format text = .ok d ∧ (compile target.handles d).result = .ok api

theorem ofFile_eq_ok {content : Except FileError String} {format : Format} {d : Definition} :
    (Definition.ofFile path format content).result = .ok d ↔
      ∃ text, content = .ok text ∧ Definition.parse format text = .ok d := by
  simp only [Definition.ofFile, Traced.result_bind, Traced.result_ofExcept, Traced.result_tell,
    bind_eq_ok, mapError_eq_ok]
  constructor
  · rintro ⟨text, htext, d', hparse, _, -, hd⟩
    cases hd
    exact ⟨text, htext, hparse⟩
  · rintro ⟨text, htext, hparse⟩
    exact ⟨text, htext, d, hparse, (), trivial, rfl⟩

theorem load_run (h : files.Honest base) (path : String) (t : FileTree) :
    ∃ loaded, (@Definition.load (StateM FileTree) _ files path).run t = (loaded, t) ∧
      ∀ d, loaded.result = .ok d ↔ ∃ format text, Format.ofPath? path = some format ∧
        ((files.readText path).run t).1 = .ok text ∧ Definition.parse format text = .ok d := by
  unfold Definition.load
  cases hformat : Format.ofPath? path with
  | none => exact ⟨_, rfl, fun d => by simp [Traced.ofExcept]⟩
  | some format =>
    obtain ⟨content, hcontent⟩ := h.read path t
    refine ⟨Definition.ofFile path format content, run_bind_of_run hcontent, fun d => ?_⟩
    simp [ofFile_eq_ok, hcontent]

theorem buildTarget_run (h : files.Honest base) (target : Target) (t : FileTree) :
    ∃ built, (@buildTarget (StateM FileTree) _ files target).run t = (built, t) ∧
      ∀ api, built.result = .ok api ↔ target.Yields files t api := by
  obtain ⟨loaded, hrun, hloaded⟩ := load_run h target.definition t
  refine ⟨build target loaded, ?_, fun api => ?_⟩
  · rw [buildTarget, StateT.run_map, hrun]
    rfl
  · simp only [build, Traced.result_bind, bind_eq_ok, Traced.result_mapError, mapError_eq_ok,
      hloaded]
    constructor
    · rintro ⟨d, ⟨format, text, hformat, htext, hparse⟩, hcompile⟩
      exact ⟨format, text, d, hformat, htext, hparse, hcompile⟩
    · rintro ⟨format, text, d, hformat, htext, hparse, hcompile⟩
      exact ⟨d, ⟨format, text, hformat, htext, hparse⟩, hcompile⟩

def Command.target? : Command → Option Target
  | .greet => none
  | .compile target _ _ | .check target => some target

inductive Ends (base : List String) (files : FileAccess (StateM FileTree)) (t : FileTree) :
    Command → Outcome → FileTree → Prop
  | greeted {o : Outcome} : o.code = 0 → Ends base files t .greet o t
  | unbuilt {command : Command} {target : Target} (log : List Event) (f : Failure) :
      command.target? = some target → (∀ api, ¬ target.Yields files t api) →
      Ends base files t command (.failed log f) t
  | checked {target : Target} {api : Api} {o : Outcome} : target.Yields files t api → o.code = 0 →
      Ends base files t (.check target) o t
  | printed {target : Target} {format : OutputFormat} {api : Api} {o : Outcome} :
      target.Yields files t api → o.code = 0 → o.stdout = render api format ++ "\n" →
      Ends base files t (.compile target format none) o t
  | refused {target : Target} {format : OutputFormat} {path : String} {api : Api} {e : FileError}
      (log : List Event) (f : Failure) : target.Yields files t api →
      ((files.writeText path (render api format)).run t).1 = .error e →
      Ends base files t (.compile target format (some path)) (.failed log f) t
  | written {target : Target} {format : OutputFormat} {path : String} {api : Api} {o : Outcome}
      {t' : FileTree} : target.Yields files t api →
      ((files.writeText path (render api format)).run t).1 = .ok () →
      t.write base path (render api format) = .ok t' → o.code = 0 → o.stdout = "" →
      Ends base files t (.compile target format (some path)) o t'

theorem runCommand_ends (h : files.Honest base) (command : Command) (t : FileTree) :
    ∃ outcome t', (@runCommand (StateM FileTree) _ files command).run t = (outcome, t') ∧
      Ends base files t command outcome t' := by
  cases command with
  | greet => exact ⟨_, _, rfl, .greeted rfl⟩
  | check target =>
    obtain ⟨built, hbuild, hbuilt⟩ := buildTarget_run h target t
    rw [runCommand, run_bind_of_run hbuild]
    cases hresult : built.result with
    | error f =>
      simp only [hresult, reduceCtorEq, false_iff] at hbuilt
      exact ⟨_, _, rfl, .unbuilt built.log f rfl hbuilt⟩
    | ok api => exact ⟨_, _, rfl, .checked ((hbuilt api).1 hresult) rfl⟩
  | compile target format output =>
    obtain ⟨built, hbuild, hbuilt⟩ := buildTarget_run h target t
    rw [runCommand, run_bind_of_run hbuild]
    cases hresult : built.result with
    | error f =>
      simp only [hresult, reduceCtorEq, false_iff] at hbuilt
      exact ⟨_, _, rfl, .unbuilt built.log f rfl hbuilt⟩
    | ok api =>
      have hyields : target.Yields files t api := (hbuilt api).1 hresult
      cases output with
      | none => exact ⟨_, _, rfl, .printed hyields rfl rfl⟩
      | some path =>
        obtain ⟨e, hwrite⟩ | ⟨t', hwrite, htree⟩ := h.write path (render api format) t
        · exact ⟨_, _, run_bind_of_run hwrite, .refused built.log _ hyields (by rw [hwrite])⟩
        · exact ⟨_, _, run_bind_of_run hwrite,
            .written hyields (by rw [hwrite]) htree rfl rfl⟩

theorem Target.Yields.unique {api' : Api} (h : target.Yields files t api)
    (h' : target.Yields files t api') : api = api' := by
  obtain ⟨format, text, d, hformat, htext, hparse, hcompile⟩ := h
  obtain ⟨format', text', d', hformat', htext', hparse', hcompile'⟩ := h'
  cases hformat.symm.trans hformat'
  cases htext.symm.trans htext'
  cases hparse.symm.trans hparse'
  cases hcompile.symm.trans hcompile'
  rfl

theorem Outcome.failed_code (log : List Event) (f : Failure) : (Outcome.failed log f).code ≠ 0 := by
  change (1 : UInt32) ≠ 0
  decide

namespace Ends

theorem of_failure {command : Command} (h : Ends base files t command outcome t')
    (hcode : outcome.code ≠ 0) : t' = t ∧ outcome.stdout = "" := by
  cases h with
  | greeted hzero => exact absurd hzero hcode
  | unbuilt log f htarget hnone => exact ⟨rfl, rfl⟩
  | checked hyields hzero => exact absurd hzero hcode
  | printed hyields hzero hstdout => exact absurd hzero hcode
  | refused log f hyields hwrite => exact ⟨rfl, rfl⟩
  | written hyields hwrite htree hzero hstdout => exact absurd hzero hcode

theorem files_eq {command : Command} (h : Ends base files t command outcome t')
    (hcommand : ∀ target format path, command ≠ .compile target format (some path)) : t' = t := by
  cases h with
  | greeted hzero => rfl
  | unbuilt log f htarget hnone => rfl
  | checked hyields hzero => rfl
  | printed hyields hzero hstdout => rfl
  | refused log f hyields hwrite => rfl
  | written hyields hwrite htree hzero hstdout => exact absurd rfl (hcommand _ _ _)

theorem check_code (h : Ends base files t (.check target) outcome t') :
    outcome.code = 0 ↔ ∃ api, target.Yields files t api := by
  cases h with
  | unbuilt log f htarget hnone =>
    cases htarget
    exact iff_of_false (Outcome.failed_code log f) (not_exists.2 hnone)
  | checked hyields hzero => exact iff_of_true hzero ⟨_, hyields⟩

theorem print_code (h : Ends base files t (.compile target format none) outcome t') :
    outcome.code = 0 ↔ ∃ api, target.Yields files t api := by
  cases h with
  | unbuilt log f htarget hnone =>
    cases htarget
    exact iff_of_false (Outcome.failed_code log f) (not_exists.2 hnone)
  | printed hyields hzero hstdout => exact iff_of_true hzero ⟨_, hyields⟩

theorem print_stdout (h : Ends base files t (.compile target format none) outcome t')
    (hyields : target.Yields files t api) : outcome.stdout = render api format ++ "\n" := by
  cases h with
  | unbuilt log f htarget hnone =>
    cases htarget
    exact absurd hyields (hnone api)
  | printed hyields' hzero hstdout => rw [hstdout, hyields'.unique hyields]

theorem write_code (h : Ends base files t (.compile target format (some path)) outcome t') :
    outcome.code = 0 ↔ ∃ api, target.Yields files t api ∧
      ((files.writeText path (render api format)).run t).1 = .ok () := by
  cases h with
  | unbuilt log f htarget hnone =>
    cases htarget
    refine iff_of_false (Outcome.failed_code log f) ?_
    rintro ⟨api, hyields, -⟩
    exact hnone api hyields
  | refused log f hyields hwrite =>
    refine iff_of_false (Outcome.failed_code log f) ?_
    rintro ⟨api, hyields', hwrite'⟩
    rw [hyields'.unique hyields, hwrite] at hwrite'
    cases hwrite'
  | written hyields hwrite htree hzero hstdout => exact iff_of_true hzero ⟨_, hyields, hwrite⟩

theorem of_write (h : Ends base files t (.compile target format (some path)) outcome t')
    (hcode : outcome.code = 0) :
    outcome.stdout = "" ∧
      ∃ api place, target.Yields files t api ∧ t.Wrote base path (render api format) place t' := by
  cases h with
  | unbuilt log f htarget hnone => exact absurd hcode (Outcome.failed_code log f)
  | refused log f hyields hwrite => exact absurd hcode (Outcome.failed_code log f)
  | written hyields hwrite htree hzero hstdout =>
    obtain ⟨place, hwrote⟩ := FileTree.exists_wrote htree
    exact ⟨hstdout, _, place, hyields, hwrote⟩

end Ends

/-- That a run which fails leaves nothing behind, and one that succeeds leaves the whole artifact in the
file that it was asked to write, and nothing else.  It succeeds when the definition can be read and
compiles, and the file can be written if one is asked for. -/
structure AllOrNothing (base : List String) (files : FileAccess (StateM FileTree)) (request : Request)
    (t : FileTree) (outcome : Outcome) (t' : FileTree) : Prop where
  failed : outcome.code ≠ 0 → t' = t ∧ outcome.stdout = ""
  unasked : (∀ verbosity target format path,
    request ≠ .run verbosity (.compile target format (some path))) → t' = t
  checked : ∀ verbosity target, request = .run verbosity (.check target) →
    (outcome.code = 0 ↔ ∃ api, target.Yields files t api)
  printed : ∀ verbosity target format, request = .run verbosity (.compile target format none) →
    (outcome.code = 0 ↔ ∃ api, target.Yields files t api) ∧
    ∀ api, target.Yields files t api → outcome.stdout = render api format ++ "\n"
  written : ∀ verbosity target format path,
    request = .run verbosity (.compile target format (some path)) →
    (outcome.code = 0 ↔ ∃ api, target.Yields files t api ∧
      ((files.writeText path (render api format)).run t).1 = .ok ()) ∧
    (outcome.code = 0 → outcome.stdout = "" ∧
      ∃ api place, target.Yields files t api ∧ t.Wrote base path (render api format) place t')

theorem Ends.allOrNothing {command : Command} (h : Ends base files t command outcome t')
    (verbosity : Nat) : AllOrNothing base files (.run verbosity command) t outcome t' where
  failed := h.of_failure
  unasked hasked := h.files_eq fun _ _ _ hcommand => hasked _ _ _ _ (congrArg _ hcommand)
  checked := by
    rintro _ target ⟨⟩
    exact h.check_code
  printed := by
    rintro _ target format ⟨⟩
    exact ⟨h.print_code, fun api => h.print_stdout⟩
  written := by
    rintro _ target format path ⟨⟩
    exact ⟨h.write_code, h.of_write⟩

theorem AllOrNothing.of_not_run {request : Request}
    (hrequest : ∀ verbosity command, request ≠ .run verbosity command)
    (hstdout : outcome.code ≠ 0 → outcome.stdout = "") :
    AllOrNothing base files request t outcome t where
  failed h := ⟨rfl, hstdout h⟩
  unasked _ := rfl
  checked _ _ h := absurd h (hrequest _ _)
  printed _ _ _ h := absurd h (hrequest _ _)
  written _ _ _ _ h := absurd h (hrequest _ _)

/-- Whatever the arguments ask for, and whatever the files are, a run leaves all of the artifact or
nothing.  It may work on the tree itself, or on a system that does not let it have every file. -/
theorem run_allOrNothing (h : files.Honest base) (arguments : List String) (t : FileTree) :
    let ended := (@run (StateM FileTree) _ files arguments).run t
    AllOrNothing base files (.ofArguments arguments) t ended.1 ended.2 := by
  rw [run]
  cases Request.ofArguments arguments with
  | run verbosity command =>
    obtain ⟨outcome, t', hrun, hends⟩ := runCommand_ends h command t
    rw [runRequest, hrun]
    exact hends.allOrNothing verbosity
  | help name => exact .of_not_run (fun _ _ h => by cases h) (fun h => absurd rfl h)
  | version => exact .of_not_run (fun _ _ h => by cases h) (fun h => absurd rfl h)
  | invalid => exact .of_not_run (fun _ _ h => by cases h) (fun _ => rfl)

end Runs

def twoDefinitions : FileTree := ⟨[
  (["srv", "api", "notes.json"], .file
    "\x7b\"schema\":\"\",\"resolvers\":\x7b\x7d,\"config\":\x7b\"name\":\"notes\"\x7d\x7d".toUTF8),
  (["srv", "api", "share.json"], .file
    ("\x7b\"schema\":\"\",\"resolvers\":\x7b\"Query\":\x7b" ++
      "\"a\":\x7b\"type\":\"db\",\"action\":\"get\"\x7d,\"b\":[]" ++
      "\x7d\x7d,\"config\":\x7b\"name\":\"n\"\x7d\x7d").toUTF8),
  (["tmp"], .directory)]⟩

def runOnTwo (files : FileAccess (StateM FileTree)) (arguments : List String) :
    Outcome × FileTree :=
  (@run (StateM FileTree) _ files arguments).run twoDefinitions

def EndsOnTwo (files : FileAccess (StateM FileTree)) (arguments : List String) (code : UInt32) :
    Prop :=
  (runOnTwo files arguments).1.code = code ∧
    AllOrNothing ["srv"] files (.ofArguments arguments) twoDefinitions
      (runOnTwo files arguments).1 (runOnTwo files arguments).2

theorem twoDefinitions_allOrNothing :
    EndsOnTwo (FileTree.accessFrom ["srv"])
      ["compile", "api/notes.json", "-o", "api/notes.json"] 0 ∧
    EndsOnTwo (FileTree.accessFrom ["srv"])
      ["compile", "/srv/api/notes.json", "-o", "/tmp/notes.json"] 0 ∧
    EndsOnTwo (FileTree.accessFrom ["srv"])
      ["compile", "../srv/api/notes.json", "-o", "../../notes.json"] 0 ∧
    EndsOnTwo (FileTree.accessFrom ["srv"])
      ["compile", "api/share.json", "-o", "api/notes.json"] 1 ∧
    EndsOnTwo (.readOnly ["srv"]) ["compile", "api/notes.json", "-o", "/tmp/notes.json"] 1 :=
  ⟨⟨by decide +kernel, run_allOrNothing (FileAccess.accessFrom_honest _) _ _⟩,
    ⟨by decide +kernel, run_allOrNothing (FileAccess.accessFrom_honest _) _ _⟩,
    ⟨by decide +kernel, run_allOrNothing (FileAccess.accessFrom_honest _) _ _⟩,
    ⟨by decide +kernel, run_allOrNothing (FileAccess.accessFrom_honest _) _ _⟩,
    ⟨by decide +kernel, run_allOrNothing (FileAccess.readOnly_honest _) _ _⟩⟩

end Cli

end ResolverPipeline
