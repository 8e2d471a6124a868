import CapabilityGate.Proofs.Audit.FirstOffence
import CapabilityGate.Proofs.Run.Cleanup
import CapabilityGate.Proofs.Run.Order
import CapabilityGate.Proofs.Run.SingleRun

/-!
# Audits and runs

A program can be audited alone, or audited in the course of a run. The denylists are put together
in different ways, but one is without repeats what the other one is, so both come to the same. A
run of a program that is not parsed or rejected ends before anything is compiled, so that its
workspace can be removed and it is reported.

## Main definitions

* `AuditAgrees`: an audit agrees with a run.

## Main results

* `withoutRepeats_append`: repeats may be left out of a part of a denylist before.
* `run_of_unparsed`, `run_of_denied`: runs that come to their outcomes before compiling.
* `entered_of_passed`: a run of a program that passes goes on to build it.
* `audit_agrees_with_run`: an audit agrees with the run of the same program.
-/

namespace CapabilityGate

open Program

/-! ### Two ways to put a denylist together -/

section WithoutRepeats

variable {α : Type} [DecidableEq α]

/-- What is kept of a list, behind what is kept already. -/
def keepNew (done xs : List α) : List α :=
  xs.foldl (fun done x => if x ∈ done then done else done ++ [x]) done

theorem keepNew_append (done xs ys : List α) :
    keepNew done (xs ++ ys) = keepNew (keepNew done xs) ys :=
  List.foldl_append

/-- What is kept are the members of **both lists**. -/
theorem mem_keepNew {x : α} {done xs : List α} : x ∈ keepNew done xs ↔ x ∈ done ∨ x ∈ xs := by
  induction xs generalizing done with
  | nil => simp [keepNew]
  | cons y ys ih =>
      rw [keepNew, List.foldl_cons, ← keepNew, ih]
      by_cases hy : y ∈ done
      · rw [if_pos hy, List.mem_cons]
        constructor
        · rintro (hx | hx)
          · exact .inl hx
          · exact .inr (.inr hx)
        · rintro (hx | rfl | hx)
          · exact .inl hx
          · exact .inl hy
          · exact .inr hx
      · rw [if_neg hy, List.mem_append, List.mem_singleton, List.mem_cons, or_assoc]

/-- Keeping what is kept of a list **keeps the same** as keeping the list. -/
theorem keepNew_keepNew (done kept xs : List α) :
    keepNew done (keepNew kept xs) = keepNew (keepNew done kept) xs := by
  induction xs generalizing kept with
  | nil => rfl
  | cons x xs ih =>
      have hfirst : ∀ ys : List α,
          keepNew ys (x :: xs) = keepNew (if x ∈ ys then ys else ys ++ [x]) xs := fun ys => rfl
      rw [hfirst, hfirst, ih]
      by_cases hx : x ∈ kept
      · have hdone : x ∈ keepNew done kept := mem_keepNew.mpr (.inr hx)
        rw [if_pos hx, if_pos hdone]
      · rw [if_neg hx, keepNew_append]
        rfl

/-- Repeats may be left out of **a part of a list before**. -/
theorem withoutRepeats_append (xs ys : List α) :
    withoutRepeats (xs ++ withoutRepeats ys) = withoutRepeats (xs ++ ys) := by
  have hsplit : ∀ zs : List α, withoutRepeats (xs ++ zs) = keepNew (keepNew [] xs) zs :=
    fun zs => keepNew_append [] xs zs
  rw [hsplit, hsplit]
  exact keepNew_keepNew _ [] ys

end WithoutRepeats

/-! ### Runs that end before compiling -/

variable {t : Toolchain} {c : Config} {s : Scene} {w : Workspace} {files : Files}

namespace Stage

/-- The first of several steps. -/
theorem steps_of_step {n : Nat} {a b : Stage} {u v : Scene} (h : a.step t c u = (b, v)) :
    a.steps t c (n + 1) u = b.steps t c n v := by
  rw [steps, h]

/-- What has happened **stays in the log**. -/
theorem Step.keeps_log {a b : Stage} {u v : Scene} (h : Step t c a u b v) : u.log <+: v.log := by
  cases h <;> simp [Scene.enter, Scene.note]

theorem steps_keeps_log (n : Nat) (stage : Stage) (u : Scene) :
    u.log <+: (stage.steps t c n u).2.log := by
  induction n generalizing stage u with
  | zero => exact List.prefix_rfl
  | succ n ih =>
      exact (step_cases t c stage u).keeps_log.trans (ih _ _)

end Stage

/-- The scene once the workspace of a run is made. -/
def Scene.housed (s : Scene) (w : Workspace) (files : Files) : Scene :=
  { s.enter .parsing with files, session := (s.session.enter .parsing).place w.path }

/-- A run **starts with** taking its session and making its workspace. -/
theorem toEnd_of_made (hpending : s.session.phase = .pending) (hmade : Made c s w files) :
    Stage.claiming.toEnd t c s = (Stage.parsing w).steps t c 10 (s.housed w files) := by
  have hclaim : Stage.claiming.step t c s = (.creating, s.enter .parsing) := by
    simp [Stage.step, Stage.claim, Session.claim?, hpending, Scene.enter, Session.enter]
  have hcreate : Stage.creating.step t c (s.enter .parsing) =
      (.parsing w, s.housed w files) := by
    have hmade' : Workspace.create c.workspace (s.enter .parsing).session.id
        (s.enter .parsing).files = (files, .ok w) := hmade
    rw [Stage.step, Stage.create, hmade']
    rfl
  exact (Stage.steps_of_step hclaim).trans (Stage.steps_of_step hcreate)

/-- A workspace that is left as it was made **can be removed**. -/
theorem Made.destroy (hmade : Made c s w files) : (w.destroy files).2 = .ok () := by
  obtain ⟨hpath, hdirectory, after, hmakes⟩ := Workspace.of_create_ok hmade
  have hremoved := Workspace.removeAll_eq_ok hmakes hdirectory
  rw [Workspace.destroy, Workspace.remove, hpath]
  generalize files.removeAll (Workspace.pathFor c.workspace s.session.id) = removed at hremoved
  obtain ⟨g, result⟩ := removed
  obtain rfl : result = .ok () := hremoved
  rfl

/-- How a run **ends with an outcome** if its workspace can be removed. -/
theorem steps_removing (outcome : Outcome) {u : Scene} (n : Nat)
    (hremoved : (w.destroy u.files).2 = .ok ()) (hended : u.session.ended = none) :
    ∃ v, (Stage.removing w (.ok outcome)).steps t c (n + 3) u = (.ended (.ok ()), v) ∧
      v.session.outcome = outcome ∧ v.log = u.log ++ [.enter .finished] := by
  have hremove : (Stage.removing w (.ok outcome)).step t c u =
      (.settling (.ok outcome) (.ok ()), { u with files := (w.destroy u.files).1 }) := by
    rw [← hremoved]
    rfl
  have hend := (Stage.steps_of_step (n := n + 2) hremove).trans
    (Stage.steps_ended n (.ok ()) _)
  refine ⟨_, hend, ?_, rfl⟩
  simp [Scene.enter, Scene.note, Session.enter, Session.outcome, Session.settle, hended]

/-- A run whose program is not parsed **reports that**, and enters no other phase for it. -/
theorem run_of_unparsed {ds : List Diagnostic} (elapsedMs : Nat)
    (hpending : s.session.phase = .pending) (hended : s.session.ended = none)
    (hmade : Made c s w files) (hparse : t.parse s.session.source = .error ds) :
    ∃ report, (s.run t c elapsedMs).2 = .ok report ∧ report.outcome = .compileFailed ds ∧
      (s.run t c elapsedMs).1.log = s.log ++ [.enter .parsing, .parse, .enter .finished] := by
  have hfailed : (Stage.parsing w).step t c (s.housed w files) =
      (.removing w (.ok (.compileFailed ds)), (s.housed w files).note .parse) := by
    have hsource : t.parse (s.housed w files).session.source = .error ds := hparse
    rw [Stage.step, Stage.parse, hsource]
  obtain ⟨v, hv, houtcome, hlog⟩ := steps_removing (t := t) (c := c) (w := w) (.compileFailed ds)
    (u := (s.housed w files).note .parse) 6 hmade.destroy hended
  have hend : Stage.claiming.toEnd t c s = (.ended (.ok ()), v) :=
    (toEnd_of_made hpending hmade).trans ((Stage.steps_of_step hfailed).trans hv)
  rw [Scene.run, hend]
  refine ⟨v.session.report elapsedMs, rfl, houtcome, ?_⟩
  rw [hlog]
  simp [Scene.housed, Scene.enter, Scene.note]

/-- The scene once the program of a run is parsed and resolved. -/
def Scene.resolved (s : Scene) (w : Workspace) (files : Files) (p : ParsedProgram) : Scene :=
  ((s.housed w files).note .parse).note (.resolve p)

/-- A run of a program that is parsed and resolved **comes to the audit**. -/
theorem toEnd_of_resolved {p : ParsedProgram} {m : Model} (hpending : s.session.phase = .pending)
    (hmade : Made c s w files) (hparse : t.parse s.session.source = .ok p)
    (hresolve : t.resolve p = .ok m) :
    Stage.claiming.toEnd t c s =
      (Stage.auditing w p m).steps t c 8 (s.resolved w files p) := by
  have hparsed : (Stage.parsing w).step t c (s.housed w files) =
      (.resolving w p, (s.housed w files).note .parse) := by
    have hsource : t.parse (s.housed w files).session.source = .ok p := hparse
    rw [Stage.step, Stage.parse, hsource]
  have hresolved : (Stage.resolving w p).step t c ((s.housed w files).note .parse) =
      (.auditing w p m, s.resolved w files p) := by
    rw [Stage.step, Stage.resolve, hresolve]
    rfl
  exact (toEnd_of_made hpending hmade).trans
    ((Stage.steps_of_step hparsed).trans (Stage.steps_of_step hresolved))

/-- A run whose program is denied **reports that**. -/
theorem run_of_denied {p : ParsedProgram} {m : Model} {site : CallSite} (elapsedMs : Nat)
    (hpending : s.session.phase = .pending) (hended : s.session.ended = none)
    (hmade : Made c s w files) (hparse : t.parse s.session.source = .ok p)
    (hresolve : t.resolve p = .ok m)
    (hdenied : (m.verdict (Stage.denied c s.session)).offending? = some site) :
    ∃ report, (s.run t c elapsedMs).2 = .ok report ∧ report.outcome = .policyViolation site := by
  have haudit : (Stage.auditing w p m).step t c (s.resolved w files p) =
      (.removing w (.ok (.policyViolation site)), (s.resolved w files p).enter .auditing) := by
    have hverdict : (m.verdict (Stage.denied c (s.resolved w files p).session)).offending? =
        some site := hdenied
    rw [Stage.step, Stage.audit, hverdict]
  obtain ⟨v, hv, houtcome, -⟩ := steps_removing (t := t) (c := c) (w := w) (.policyViolation site)
    (u := (s.resolved w files p).enter .auditing) 4 hmade.destroy hended
  have hend : Stage.claiming.toEnd t c s = (.ended (.ok ()), v) :=
    (toEnd_of_resolved hpending hmade hparse hresolve).trans
      ((Stage.steps_of_step haudit).trans hv)
  rw [Scene.run, hend]
  exact ⟨v.session.report elapsedMs, rfl, houtcome⟩

/-- A run of a program that passes **goes on to build it**. -/
theorem entered_of_passed {p : ParsedProgram} {m : Model} (elapsedMs : Nat)
    (hpending : s.session.phase = .pending) (hmade : Made c s w files)
    (hparse : t.parse s.session.source = .ok p) (hresolve : t.resolve p = .ok m)
    (hpassed : (m.verdict (Stage.denied c s.session)).offending? = none) :
    .enter .auditing ∈ (s.run t c elapsedMs).1.log ∧
      .enter .building ∈ (s.run t c elapsedMs).1.log := by
  have haudit : (Stage.auditing w p m).step t c (s.resolved w files p) =
      (.checking w p m, (s.resolved w files p).enter .auditing) := by
    have hverdict : (m.verdict (Stage.denied c (s.resolved w files p).session)).offending? =
        none := hpassed
    rw [Stage.step, Stage.audit, hverdict]
  have hcheck : ∃ next, (Stage.checking w p m).step t c ((s.resolved w files p).enter .auditing) =
      (next, (((s.resolved w files p).enter .auditing).enter .building).note .check) := by
    rw [Stage.step, Stage.check]
    split <;> exact ⟨_, rfl⟩
  obtain ⟨next, hnext⟩ := hcheck
  have hend := (toEnd_of_resolved hpending hmade hparse hresolve).trans
    ((Stage.steps_of_step haudit).trans (Stage.steps_of_step hnext))
  have hlog : (s.run t c elapsedMs).1.log = (Stage.claiming.toEnd t c s).2.log := rfl
  have hlogged := Stage.steps_keeps_log (t := t) (c := c) 6 next
    ((((s.resolved w files p).enter .auditing).enter .building).note .check)
  rw [hlog, hend]
  constructor <;> refine hlogged.subset ?_ <;> simp [Scene.enter, Scene.note]

/-- Only the audit ends a run **with a denied call site**. -/
theorem EndsWith.denied {site : CallSite} (h : EndsWith t c s (.policyViolation site)) :
    ∃ p m, t.parse s.session.source = .ok p ∧ t.resolve p = .ok m ∧
      (m.verdict (Stage.denied c s.session)).offending? = some site := by
  obtain ⟨w, files, -, hstops⟩ := h
  generalize houtcome : Outcome.policyViolation site = outcome at hstops
  cases hstops with
  | auditing hparse hresolve hdenied =>
      obtain rfl := Outcome.policyViolation.inj houtcome
      exact ⟨_, _, hparse, hresolve, hdenied⟩
  | executing hlinked hcompile hexecute hend =>
      rcases hend with htimed | ⟨code, hcode⟩
      · exact nomatch houtcome.trans htimed
      · exact nomatch houtcome.trans hcode
  | _ => exact nomatch houtcome

/-- A report is of an outcome that the run **ends with**. -/
theorem endsWith_of_report {elapsedMs : Nat} {report : RunReport} (hended : s.session.ended = none)
    (h : (s.run t c elapsedMs).2 = .ok report) : EndsWith t c s report.outcome := by
  obtain ⟨result, last, hreaches, hrun⟩ := Scene.run_eq t c elapsedMs s
  rw [hrun] at h
  obtain ⟨rfl, rfl⟩ := Session.of_reportOf h
  obtain ⟨outcome, hsettled, hends⟩ := (knows_of_reaches hended hreaches).known
  rwa [Session.report, Session.outcome, hsettled]

/-! ### The two commands -/

/-- Both commands are given **the same program**: they name the same file, settings and denylist,
where the one that runs it may be given a deadline. -/
structure GivenAlike (t : Situation) (c : Config) (deny : List Descriptor) (source file : String)
    (toRun toAudit : Given) : Prop where
  /-- The settings are those of a file, with the deadline. -/
  config : ∃ read, t.config toRun.config = .ok read ∧ Situation.deadline toRun read = c
  /-- The file holds the program. -/
  text : t.source file = .ok source
  /-- This is denied to it. -/
  denied : toRun.deny = deny
  /-- The settings to audit it are those of the same file. -/
  sameConfig : toAudit.config = toRun.config
  /-- The same is denied to it then. -/
  sameDeny : toAudit.deny = deny

/-- An audit **agrees with the run** of the same program. -/
structure AuditAgrees (t : Situation) (c : Config) (deny : List Descriptor) (source : String)
    (audit : Except SyntaxError AuditReport) (run : Scene × Except Fault RunReport) : Prop where
  /-- There is no audit of a program for some reason, if its run ends with this reason and does
  not come to an audit. -/
  unparsed : ∀ ds, (∃ e, audit = .error e ∧ ds = [.ofSyntaxError e]) ↔
    ∃ report, run.2 = .ok report ∧ report.outcome = .compileFailed ds ∧
      .enter .auditing ∉ run.1.log
  /-- The audit rejects a program for a call site, if its run ends with this call site. -/
  rejected : ∀ site, (∃ found, audit = .ok found ∧ found.verdict.offending? = some site) ↔
    ∃ report, run.2 = .ok report ∧ report.outcome = .policyViolation site
  /-- In both cases the two commands end with the same status. -/
  status : ∀ file toRun toAudit, GivenAlike t c deny source file toRun toAudit →
    (∀ found, audit = .ok found → found.verdict.rejects = true) →
      (t.invoke (.run file toRun)).status = (t.invoke (.audit file toAudit)).status
  /-- If the audit passes a program, its run comes to build it. -/
  passed : ∀ found, audit = .ok found → found.verdict.offending? = none →
    .enter .building ∈ run.1.log

/-- What an audit reports is **what the run finds**: the program is parsed to the tree, and the
denylists come to the same. -/
theorem AuditReport.ofSource_eq_ok {c : Config} {deny : List Descriptor} {source : String}
    {found : AuditReport} (id : RunId)
    (h : AuditReport.ofSource c.denylist deny source = .ok found) :
    ∃ p m, Toolchain.parseSource source = .ok p ∧ Toolchain.resolveProgram p = .ok m ∧
      found.verdict = m.verdict (Stage.denied c ((Session.ofSource id source).deny deny)) := by
  rw [AuditReport.ofSource] at h
  cases hparse : SourceFile.parse source with
  | error e =>
      rw [hparse] at h
      exact nomatch h
  | ok tree =>
      rw [hparse] at h
      obtain rfl := Except.ok.inj h
      refine ⟨⟨source, tree⟩, Model.ofProgram tree, ?_, rfl, ?_⟩
      · rw [Toolchain.parseSource, hparse]
      · rw [Stage.denied, Session.deny, withoutRepeats_append]
        rfl

/-- A program that is not audited **is not parsed** by its run. -/
theorem AuditReport.ofSource_eq_error {configured own : List Descriptor} {source : String}
    {e : SyntaxError} (h : AuditReport.ofSource configured own source = .error e) :
    Toolchain.parseSource source = .error [.ofSyntaxError e] := by
  rw [AuditReport.ofSource] at h
  cases hparse : SourceFile.parse source with
  | error other =>
      rw [hparse] at h
      obtain rfl := Except.error.inj h
      rw [Toolchain.parseSource, hparse]
  | ok tree =>
      rw [hparse] at h
      exact nomatch h

/-- The status of the command that runs a program is **that of the outcome**. -/
theorem Situation.status_run {t : Situation} {c : Config} {deny : List Descriptor}
    {source file : String} {toRun toAudit : Given} {report : RunReport}
    (hgiven : GivenAlike t c deny source file toRun toAudit)
    (hreport : t.runReport c deny source = .ok report) :
    (t.invoke (.run file toRun)).status = report.outcome.exitStatus := by
  obtain ⟨⟨read, hread, rfl⟩, hsource, rfl, -, -⟩ := hgiven
  have hrun : t.run file toRun = .ok (.ofRunReport toRun.json report) := by
    simp [run, hread, hsource, hreport, bind, Except.bind, pure, Except.pure]
  rw [invoke, hrun]
  cases toRun.json <;> rfl

/-- The status of the command that audits a program is **that of what it finds**. -/
theorem Situation.status_audit {t : Situation} {c : Config} {deny : List Descriptor}
    {source file : String} {toRun toAudit : Given}
    (hgiven : GivenAlike t c deny source file toRun toAudit) :
    (t.invoke (.audit file toAudit)).status =
      match AuditReport.ofSource c.denylist deny source with
      | .ok found => if found.verdict.rejects then Outcome.violationStatus else 0
      | .error _ => Outcome.compileFailedStatus := by
  obtain ⟨⟨read, hread, rfl⟩, hsource, rfl, hconfig, hdeny⟩ := hgiven
  have hdenylist : (deadline toRun read).denylist = read.denylist := by
    rw [deadline]
    split <;> rfl
  rw [invoke, audit, hconfig, hread, hdeny, hsource, hdenylist]
  simp only [bind, Except.bind, pure, Except.pure]
  cases AuditReport.ofSource read.denylist toRun.deny source with
  | error e => rfl
  | ok found => cases toAudit.json <;> rfl

namespace AuditAgrees

variable {t : Situation} {c : Config} {deny : List Descriptor} {source : String}
  {run : Scene × Except Fault RunReport} {report : RunReport}

/-- An audit agrees with a run of a program that is **not parsed**. -/
theorem of_unparsed {e : SyntaxError}
    (haudit : AuditReport.ofSource c.denylist deny source = .error e)
    (hrunReport : t.runReport c deny source = .ok report) (hreport : run.2 = .ok report)
    (houtcome : report.outcome = .compileFailed [.ofSyntaxError e])
    (hquiet : .enter .auditing ∉ run.1.log) : AuditAgrees t c deny source (.error e) run where
  unparsed := by
    intro ds
    constructor
    · rintro ⟨e', he, rfl⟩
      obtain rfl := Except.error.inj he
      exact ⟨report, hreport, houtcome, hquiet⟩
    · rintro ⟨other, hother, hfailed, -⟩
      obtain rfl := Except.ok.inj (hreport.symm.trans hother)
      exact ⟨e, rfl, Outcome.compileFailed.inj (hfailed.symm.trans houtcome)⟩
  rejected := by
    intro site
    constructor
    · rintro ⟨found, hfound, -⟩
      exact nomatch hfound
    · rintro ⟨other, hother, hdenied⟩
      obtain rfl := Except.ok.inj (hreport.symm.trans hother)
      exact nomatch hdenied.symm.trans houtcome
  status := by
    intro file toRun toAudit hgiven hrejects
    rw [Situation.status_run hgiven hrunReport, Situation.status_audit hgiven, haudit, houtcome]
    rfl
  passed := fun found hfound => nomatch hfound

variable {found : AuditReport}

/-- An audit agrees with a run of a program that is **denied**. -/
theorem of_denied {site : CallSite}
    (haudit : AuditReport.ofSource c.denylist deny source = .ok found)
    (hoffending : found.verdict.offending? = some site)
    (hrunReport : t.runReport c deny source = .ok report) (hreport : run.2 = .ok report)
    (houtcome : report.outcome = .policyViolation site) :
    AuditAgrees t c deny source (.ok found) run where
  unparsed := by
    intro ds
    constructor
    · rintro ⟨e, he, -⟩
      exact nomatch he
    · rintro ⟨other, hother, hfailed, -⟩
      obtain rfl := Except.ok.inj (hreport.symm.trans hother)
      exact nomatch hfailed.symm.trans houtcome
  rejected := by
    intro other
    constructor
    · rintro ⟨found', hfound, hother⟩
      obtain rfl := Except.ok.inj hfound
      obtain rfl := Option.some.inj (hother.symm.trans hoffending)
      exact ⟨report, hreport, houtcome⟩
    · rintro ⟨report', hreport', hdenied⟩
      obtain rfl := Except.ok.inj (hreport.symm.trans hreport')
      obtain rfl := Outcome.policyViolation.inj (hdenied.symm.trans houtcome)
      exact ⟨found, rfl, hoffending⟩
  status := by
    intro file toRun toAudit hgiven hrejects
    have hrejected : found.verdict.rejects = true := hrejects found rfl
    rw [Situation.status_run hgiven hrunReport, Situation.status_audit hgiven, haudit, houtcome]
    simp only [hrejected]
    rfl
  passed := by
    intro found' hfound hnone
    obtain rfl := Except.ok.inj hfound
    exact nomatch hoffending.symm.trans hnone

/-- An audit agrees with a run of a program that **passes**. -/
theorem of_passed (hoffending : found.verdict.offending? = none)
    (haudited : .enter .auditing ∈ run.1.log) (hbuilt : .enter .building ∈ run.1.log)
    (hallowed : ∀ report site, run.2 = .ok report → report.outcome ≠ .policyViolation site) :
    AuditAgrees t c deny source (.ok found) run where
  unparsed := by
    intro ds
    constructor
    · rintro ⟨e, he, -⟩
      exact nomatch he
    · rintro ⟨report, -, -, hquiet⟩
      exact absurd haudited hquiet
  rejected := by
    intro site
    constructor
    · rintro ⟨found', hfound, hsite⟩
      obtain rfl := Except.ok.inj hfound
      exact nomatch hoffending.symm.trans hsite
    · rintro ⟨report, hreport, hdenied⟩
      exact absurd hdenied (hallowed report site hreport)
  status := by
    intro file toRun toAudit hgiven hrejects
    have hrejected : found.verdict.rejects = true := hrejects found rfl
    rw [Verdict.rejects, hoffending] at hrejected
    exact nomatch hrejected
  passed := fun _ _ _ => hbuilt

end AuditAgrees

/-- **An audit agrees with the run of the same program**, for all settings, programs and
denylists, if the service starts and the workspace of the run is made. -/
theorem audit_agrees_with_run (t : Situation) (c : Config) (deny : List Descriptor)
    (source : String) (hcheck : Service.check c = .ok ()) {w : Workspace} {files : Files}
    (hcreate : Workspace.create c.workspace t.id t.files = (files, .ok w)) :
    AuditAgrees t c deny source (AuditReport.ofSource c.denylist deny source)
      ((t.scene deny source).run (.ofConfig c) c t.elapsedMs) := by
  have hmade : Made c (t.scene deny source) w files := hcreate
  have hrunReport := t.runReport_eq hcheck deny source
  cases haudit : AuditReport.ofSource c.denylist deny source with
  | error e =>
      obtain ⟨report, hreport, houtcome, hlog⟩ := run_of_unparsed (t := .ofConfig c) t.elapsedMs rfl
        rfl hmade (AuditReport.ofSource_eq_error haudit)
      rw [hreport] at hrunReport
      refine .of_unparsed haudit hrunReport hreport houtcome ?_
      rw [hlog]
      simp [Situation.scene]
  | ok found =>
      obtain ⟨p, m, hparse, hresolve, hverdict⟩ := AuditReport.ofSource_eq_ok t.id haudit
      cases hoffending : found.verdict.offending? with
      | some site =>
          have hdenied := hoffending
          rw [hverdict] at hdenied
          obtain ⟨report, hreport, houtcome⟩ := run_of_denied (t := .ofConfig c) t.elapsedMs rfl
            rfl hmade hparse hresolve hdenied
          rw [hreport] at hrunReport
          exact .of_denied haudit hoffending hrunReport hreport houtcome
      | none =>
          have hpassed := hoffending
          rw [hverdict] at hpassed
          obtain ⟨haudited, hbuilt⟩ := entered_of_passed (t := .ofConfig c) t.elapsedMs rfl hmade
            hparse hresolve hpassed
          refine .of_passed hoffending haudited hbuilt ?_
          intro report site hreport hdenied
          have hends := endsWith_of_report rfl hreport
          rw [hdenied] at hends
          obtain ⟨p', m', hparse', hresolve', hsite⟩ := hends.denied
          obtain rfl := Except.ok.inj (hparse.symm.trans hparse')
          obtain rfl := Except.ok.inj (hresolve.symm.trans hresolve')
          cases hpassed.symm.trans hsite

/-- The input is a program that opens a file, and there are no files. -/
def openingSituation : Situation :=
  ⟨⟨.directory [], []⟩, Text.bytesOf "fn main() \x7b std::fs::File::open(\"x\"); \x7d",
    ⟨"00000000000040008000000000000001".toList⟩, 0⟩

/-- The audit of a program that opens a file agrees with its run, if the settings and the command
deny that, the latter twice. -/
theorem audit_agrees_with_opening_run :
    let opening : Descriptor := ⟨.mk "std::fs::File" [], some "open"⟩
    let c : Config := { denylist := [opening] }
    let source := "fn main() \x7b std::fs::File::open(\"x\"); \x7d"
    Service.check c = .ok () ∧
      (∃ files w, Workspace.create c.workspace openingSituation.id openingSituation.files =
        (files, .ok w)) ∧
      AuditAgrees openingSituation c [opening, opening] source
        (AuditReport.ofSource c.denylist [opening, opening] source)
        ((openingSituation.scene [opening, opening] source).run (.ofConfig c) c 0) := by
  intro opening c source
  have hcheck : Service.check c = .ok () := by decide +kernel
  obtain ⟨files, w, hcreate⟩ : ∃ files w, Workspace.create c.workspace openingSituation.id
      openingSituation.files = (files, .ok w) := by
    have hok : (Workspace.create c.workspace openingSituation.id
        openingSituation.files).2.isOk = true := by decide +kernel
    generalize Workspace.create c.workspace openingSituation.id openingSituation.files = made
      at hok
    obtain ⟨files, _ | w⟩ := made
    · exact nomatch hok
    · exact ⟨files, w, rfl⟩
  exact ⟨hcheck, ⟨files, w, hcreate⟩,
    audit_agrees_with_run openingSituation c _ source hcheck hcreate⟩

end CapabilityGate
