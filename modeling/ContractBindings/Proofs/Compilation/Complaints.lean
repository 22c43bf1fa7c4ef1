import ContractBindings.Proofs.Compilation.Trials

/-!
# What the log tells of a failure

A compilation that fails has an error line in two cases: the compiler reports
the failure itself, or the name of its output is refused. An output that is
refused to the reader has one too. In all other cases a failure leaves no
error line: where the directory cannot be made, the compiler cannot be run,
its output cannot be written, a path has a null character, or what is read is
no JSON in UTF-8 (`failures_logged`).
-/

namespace ContractBindings.Compilation

open Session Files

variable {s t : State}

/-- An error line is added whose message ends with that of the error. -/
def Told (before after : State) (e : Error) : Prop :=
  ∃ lines, after.log = before.log ++ lines ∧
    ∃ l ∈ lines, l.level = .error ∧ ∃ words, l.message = words ++ e.message

def Untold (before after : State) : Prop :=
  ∃ lines, after.log = before.log ++ lines ∧ ∀ l ∈ lines, l.level ≠ .error

theorem Untold.of_eq (h : t.log = s.log) : Untold s t :=
  ⟨[], by rw [h, List.append_nil], by simp⟩

theorem Untold.trans {u : State} (h : Untold s u) (h' : Untold u t) : Untold s t := by
  obtain ⟨lines, hu, hquiet⟩ := h
  obtain ⟨lines', ht, hquiet'⟩ := h'
  refine ⟨lines ++ lines', by rw [ht, hu, List.append_assoc], fun l hl => ?_⟩
  rcases List.mem_append.mp hl with hl | hl
  · exact hquiet l hl
  · exact hquiet' l hl

theorem Untold.trans_told {u : State} {e : Error} (h : Untold s u) (h' : Told u t e) : Told s t e := by
  obtain ⟨lines, hu, -⟩ := h
  obtain ⟨lines', ht, l, hl, htells⟩ := h'
  exact ⟨lines ++ lines', by rw [ht, hu, List.append_assoc], l, List.mem_append_right _ hl, htells⟩

theorem Told.of_line (words : String) {e : Error}
    (h : t.log = s.log ++ [⟨.error, words ++ e.message⟩]) : Told s t e :=
  ⟨_, h, _, List.mem_singleton_self _, rfl, words, rfl⟩

theorem untold_log {level : Level} (hl : level ≠ .error) (message : String) :
    Untold s { s with log := s.log ++ [⟨level, message⟩] } :=
  ⟨_, rfl, fun _ hm => List.mem_singleton.mp hm ▸ hl⟩

theorem untold_record (event : Event) : Untold s { s with events := s.events ++ [event] } :=
  .of_eq rfl

theorem Untold.not_told (h : Untold s t) (e : Error) : ¬Told s t e := by
  rintro ⟨lines', ht', l, hl, hlevel, -⟩
  obtain ⟨lines, ht, hquiet⟩ := h
  obtain rfl := List.append_cancel_left (ht.symm.trans ht')
  exact hquiet l hl hlevel

def IsRefusal (e : Error) : Prop := ∃ cause path target, e = .file (.refused cause path target)

/-! ## Stages that fail -/

theorem untold_onDisk {work : Disk → Except Failure Disk} {r : Except Error Unit}
    (h : Runs (onDisk work) s r t) : Untold s t :=
  .of_eq (keeps_onDisk (fun _ _ => rfl) work s t r h)

theorem untold_ensureDirectories {p : Path} {r : Except Error Unit}
    (h : Runs (ensureDirectories p) s r t) : Untold s t :=
  .of_eq (keeps_ensureDirectories (fun _ _ => rfl) p s t r h)

/-- A stage that tells of refusals, in words of its own, and of no other failure. -/
theorem runs_telling_error {α : Type} {work : Session α} (hw : Keeps State.log work) {words : String}
    {e : Error}
    (h : Runs (tryCatch work fun
      | .file (.refused cause path target) => do
        log .error (words ++ (Failure.refused cause path target).message)
        throw (.file (.refused cause path target))
      | e => throw e) s (.error e) t) :
    IsRefusal e ∧ Told s t e ∨ ¬IsRefusal e ∧ Untold s t := by
  rcases runs_tryCatch.mp h with ⟨_, -, h⟩ | ⟨e', u, hfails, h⟩
  · cases h
  have hu : Untold s u := .of_eq (hw _ _ _ hfails)
  split at h
  · next cause path target =>
    rw [runs_log_bind, runs_throw] at h
    obtain ⟨he, rfl⟩ := h
    cases he
    exact .inl ⟨⟨cause, path, target, rfl⟩, hu.trans_told (.of_line _ rfl)⟩
  · next hne =>
    obtain ⟨he, rfl⟩ := runs_throw.mp h
    cases he
    refine .inr ⟨?_, hu⟩
    rintro ⟨cause, path, target, rfl⟩
    exact hne cause path target rfl

theorem runs_rename_fails {source target : Path} {e : Error}
    (h : Runs (rename source target) s (.error e) t) :
    IsRefusal e ∧ Told s t e ∨ ¬IsRefusal e ∧ Untold s t :=
  runs_telling_error (keeps_onDisk (fun _ _ => rfl) _) h

theorem runs_readOutput_fails {path : String} {e : Error} (h : Runs (readOutput path) s (.error e) t) :
    IsRefusal e ∧ Told s t e ∨ ¬IsRefusal e ∧ Untold s t :=
  runs_telling_error (keeps_readJson path) h

section
variable {tools : Toolchain} {job : CompileJob}

theorem runs_runCompiler_fails {e : Error} (h : Runs (runCompiler tools job) s (.error e) t) :
    (∃ report, tools.compile job = .error (.compilerFailed report)) ∧ Told s t e ∨
      (¬∃ report, tools.compile job = .error (.compilerFailed report)) ∧ Untold s t := by
  unfold runCompiler at h
  rw [runs_bind_of_ok (runs_record.mpr ⟨rfl, rfl⟩)] at h
  split at h
  · cases (runs_pure.mp h).1
  · next hout =>
    refine .inr ⟨?_, (untold_record _).trans (untold_onDisk h)⟩
    rintro ⟨report, hreport⟩
    rw [hout] at hreport
    cases hreport
  · next report hout =>
    rw [runs_log_bind, runs_throw] at h
    obtain ⟨he, rfl⟩ := h
    cases he
    exact .inl ⟨⟨report, hout⟩, .of_line "" (by rw [String.empty_append]; rfl)⟩
  · next hne hout =>
    obtain ⟨he, rfl⟩ := runs_throw.mp h
    cases he
    refine .inr ⟨?_, .of_eq rfl⟩
    rintro ⟨report, hreport⟩
    rw [hout] at hreport
    cases hreport
    exact hne report rfl

theorem untold_runCompiler (h : Runs (runCompiler tools job) s (.ok ()) t) : Untold s t := by
  unfold runCompiler at h
  rw [runs_bind_of_ok (runs_record.mpr ⟨rfl, rfl⟩)] at h
  split at h
  · rw [(runs_pure.mp h).2]
    exact .of_eq rfl
  · exact (untold_record _).trans (untold_onDisk h)
  · rw [runs_log_bind, runs_throw] at h
    cases h.1
  · cases (runs_throw.mp h).1

end

/-! ## Compilations that fail -/

namespace Trial

variable {c : Trial} {e : Error}

def Starts (c : Trial) : Prop := ∃ u, Runs (ensureDirectories c.directoryPath) c.before (.ok ()) u

/-- A failure that someone has a word for: the compiler that fails itself, or the file system that does
not let the output have its name. -/
def IsReported (c : Trial) (e : Error) : Prop :=
  (c.Starts ∧ ∃ report, c.output = .error (.compilerFailed report)) ∨
    (∃ v, c.Reaches v) ∧ IsRefusal e

theorem told_or_untold (h : c.result = .error e) :
    c.IsReported e ∧ Told c.before c.after e ∨ ¬c.IsReported e ∧ Untold c.before c.after := by
  have hrun := c.runs
  rw [h] at hrun
  unfold compile at hrun
  rcases runs_bind.mp hrun with ⟨e', hdirs, he⟩ | ⟨_, u, hdirs, hrun⟩
  · -- without a directory the compiler is not run
    refine .inr ⟨?_, untold_ensureDirectories hdirs⟩
    rintro (⟨⟨u, hstarts⟩, -⟩ | ⟨⟨v, u, hstarts, -⟩, -⟩)
    · cases (runs_unique hstarts hdirs).1
    · cases (runs_unique hstarts hdirs).1
  have hu := untold_ensureDirectories hdirs
  rcases runs_bind.mp hrun with ⟨e', hcomp, he⟩ | ⟨_, v, hcomp, hrun⟩
  · cases he
    rcases runs_runCompiler_fails hcomp with ⟨hreport, htold⟩ | ⟨hnone, huntold⟩
    · exact .inl ⟨.inl ⟨⟨u, hdirs⟩, hreport⟩, hu.trans_told htold⟩
    · refine .inr ⟨?_, hu.trans huntold⟩
      rintro (⟨-, hreport⟩ | ⟨⟨v, u', hstarts, hreached⟩, -⟩)
      · exact hnone hreport
      · obtain ⟨-, rfl⟩ := runs_unique hstarts hdirs
        cases (runs_unique hreached hcomp).1
  rw [runs_log_bind] at hrun
  have hv := hu.trans (untold_runCompiler hcomp)
  rcases runs_bind.mp hrun with ⟨e', hmove, he⟩ | ⟨_, w, -, hrun⟩
  · cases he
    rcases runs_rename_fails hmove with ⟨hrefusal, htold⟩ | ⟨hnone, huntold⟩
    · exact .inl ⟨.inr ⟨⟨v, u, hdirs, hcomp⟩, hrefusal⟩, hv.trans_told ((untold_log (by decide) _).trans_told htold)⟩
    · refine .inr ⟨?_, hv.trans ((untold_log (by decide) _).trans huntold)⟩
      rintro (⟨-, report, hreport⟩ | ⟨-, hrefusal⟩)
      · obtain ⟨written, hout⟩ := runs_runCompiler_answered _ hcomp
        cases hout.symm.trans hreport
      · exact hnone hrefusal
  · cases (runs_pure.mp hrun).1

end Trial

/-- **The log tells of a failure exactly where the compiler or the file system has refused.** A failed
compilation has an error line that ends with the message of the error if its compiler has reported the
failure or the name of the output was refused, and a failure to read an output has one if the file was
refused. Any other failure, and there are some at each step, adds no error line. -/
theorem failures_logged (c : Trial) (path : String) (s : State) :
    (∀ e, c.result = .error e →
      c.IsReported e ∧ Told c.before c.after e ∨ ¬c.IsReported e ∧ Untold c.before c.after) ∧
    ∀ e t, Runs (readOutput path) s (.error e) t →
      IsRefusal e ∧ Told s t e ∨ ¬IsRefusal e ∧ Untold s t :=
  ⟨fun _ => Trial.told_or_untold, fun _ _ => runs_readOutput_fails⟩

def emptyWorkplace : Disk where
  nodes := [(["work"], .directory)]
  here := ["work"]

def parserReport : CompilerReport where
  message := none
  command := []
  exitCode := .int 1
  stdout := none
  stderr := some "ParserError: Expected ';'"

def misspelled : Trial :=
  .ofOutput (.error (.compilerFailed parserReport)) "Vault.sol" "out" emptyWorkplace

theorem failures_logged_misspelled :
    misspelled.result = .error (.compilation "ParserError: Expected ';'") ∧
    Told misspelled.before misspelled.after (.compilation "ParserError: Expected ';'") ∧
    ∃ e t, Runs (readOutput "Vault.json") { disk := emptyWorkplace } (.error e) t ∧
      Told { disk := emptyWorkplace } t e := by
  have hresult : misspelled.result = .error (.compilation "ParserError: Expected ';'") := by
    decide +kernel
  have hstarts : misspelled.Starts := by
    obtain ⟨_, u, hu⟩ := exists_ok_of_isSome (s := misspelled.before)
      (show ((ensureDirectories misspelled.directoryPath).run.run _).1.toOption.isSome = true by
        decide +kernel)
    exact ⟨u, hu⟩
  have hreported : misspelled.IsReported (.compilation "ParserError: Expected ';'") :=
    .inl ⟨hstarts, parserReport, rfl⟩
  obtain ⟨t, hread⟩ : ∃ t, Runs (readOutput "Vault.json") { disk := emptyWorkplace }
      (.error (.file (.refused .notFound "Vault.json" none))) t :=
    exists_runs_error (by decide +kernel)
  obtain ⟨hcompile, hreading⟩ :=
    failures_logged misspelled "Vault.json" { disk := emptyWorkplace }
  refine ⟨hresult, ?_, _, t, hread, ?_⟩
  · exact ((hcompile _ hresult).resolve_right fun h => h.1 hreported).2
  · exact ((hreading _ _ hread).resolve_right fun h => h.1 ⟨_, _, _, rfl⟩).2

def occupied : Trial :=
  .ofOutput (.ok (some [1])) "Vault.sol" "out"
    { nodes := [(["work"], .directory), (["work", "out"], .file [])], here := ["work"] }

def locked : Trial :=
  .ofOutput (.error (.system "[Errno 13] Permission denied: 'solc'")) "Vault.sol" "out" emptyWorkplace

/-- No line tells of a file in the place of the directory, of a compiler that cannot be run, or of an
output that is empty. -/
theorem failures_unlogged :
    (∃ e, occupied.result = .error e ∧ ¬Told occupied.before occupied.after e) ∧
    (∃ e, locked.result = .error e ∧ ¬Told locked.before locked.after e) ∧
    ∃ e t, Runs (readOutput "out") occupied.before (.error e) t ∧ ¬Told occupied.before t e := by
  obtain ⟨t, hread⟩ : ∃ t, Runs (readOutput "out") occupied.before
      (.error (.badJson ⟨.value, 1, 1, 0⟩)) t :=
    exists_runs_error (by decide +kernel)
  refine ⟨⟨.file (.refused .alreadyThere "out" none), by decide +kernel, ?_⟩,
    ⟨.system "[Errno 13] Permission denied: 'solc'", by decide +kernel, ?_⟩, _, t, hread, ?_⟩
  · exact Untold.not_told (.of_eq (by decide +kernel)) _
  · exact Untold.not_told (.of_eq (by decide +kernel)) _
  · refine ((runs_readOutput_fails hread).resolve_left ?_).2.not_told _
    rintro ⟨⟨_, _, _, h⟩, -⟩
    cases h

end ContractBindings.Compilation
