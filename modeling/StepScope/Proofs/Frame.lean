import StepScope.Run
import StepScope.Proofs.Growth
import StepScope.Proofs.StoredSettings

/-!
What runs do to files, on machines that may refuse to make any of them. A run makes folders for the logs, and it
writes the default settings where nothing was; all that was there stays as it was, so what `config --init`
shows once it shows ever after. A run that ends in a report has written no file by then.
-/

namespace StepScope

open CommandLine (Action Request)
open Files (Grows AddsFolders)

namespace Settings

theorem contains_of_load {files : Files} {path : Text} {s : Settings} (h : load files path = .ok s) :
    files.contains path = true := by
  unfold load at h
  split at h
  · cases h
  · rename_i hread
    obtain ⟨bytes, hread, -⟩ := Option.bind_eq_some_iff.1 hread
    obtain ⟨p, hplace, hfile⟩ := Files.read?_eq_some_iff.1 hread
    rw [Files.contains, Files.find?, hplace]
    exact Option.isSome_iff_exists.2 ⟨_, Files.file?_eq_some_iff.1 hfile⟩

theorem loadIfAny_of_load {files : Files} {path : Text} {s : Settings} (h : load files path = .ok s) :
    loadIfAny files path = .ok s := by
  rw [loadIfAny, if_pos (contains_of_load h), h]

theorem renderer_of_addressBook {s : Settings} {book : AddressBook} (h : s.addressBook = .ok book)
    (html : Bool) :
    s.renderer html = .ok { surface := if html then .html else s.surface, book := some book } := by
  rw [renderer, h]
  rfl

theorem load_of_grows {files files' : Files} {path : Text} {s : Settings} (hgrows : Grows files files')
    (h : load files path = .ok s) : load files' path = .ok s := by
  unfold load at h ⊢
  split at h
  · cases h
  · rename_i hread
    obtain ⟨bytes, hread, htext⟩ := Option.bind_eq_some_iff.1 hread
    have hread' : files'.readText? path = some _ :=
      Option.bind_eq_some_iff.2 ⟨bytes, hgrows.read? hread, htext⟩
    rw [hread']
    exact h

/-- The bytes of the default settings. -/
def defaultBytes : Bytes := Text.utf8 (toToml {})

/-- What saving the default settings does where nothing is under the path: the second files have them, at
the place that the path means. There may be some folders more. -/
structure Adds (files : Files) (path : Text) (p : Place) (files' : Files) : Prop where
  grows : Grows files files'
  absent : files.contains path = false
  vacant : files.node? p = none
  place : files'.place path = .ok p
  file? : ∀ q, files'.file? q = if q = p then some defaultBytes else files.file? q

theorem adds_of_save {files files' : Files} {path : Text} {refusals : Refusals}
    (habsent : files.contains path = false) (h : save {} files path refusals = .ok files') :
    ∃ p, Adds files path p files' := by
  obtain ⟨p, hplace, hnone, rfl⟩ := Files.write?_of_not_contains habsent (save_eq_ok_iff.1 h)
  have hgrows : Grows files (files.put p (.file defaultBytes)) := .put hnone _
  refine ⟨p, hgrows, habsent, hnone, hgrows.keepsFolders.place hplace, ?_⟩
  intro q
  by_cases hq : q = p
  · rw [if_pos hq, hq]
    exact Files.file?_eq_some_iff.2 (Files.node?_put_self (Files.isFolder_of_node?_eq_none hnone) _)
  · rw [if_neg hq, Files.file?, Files.file?, Files.node?_put_of_ne hq]

theorem Adds.after {files ready files' : Files} {path : Text} {p : Place} (h : Adds ready path p files')
    (hready : AddsFolders files ready) : Adds files path p files' := by
  refine ⟨hready.toGrows.trans h.grows, ?_, ?_, h.place, ?_⟩
  · rw [Bool.eq_false_iff]
    intro hcontains
    exact Bool.eq_false_iff.1 h.absent (hready.toGrows.contains hcontains)
  · cases hnode : files.node? p with
    | none => rfl
    | some node => exact (hready.node? hnode).symm.trans h.vacant
  · intro q
    rw [h.file? q, hready.file?_eq]

end Settings

theorem Files.unchanged_eq_ok {α : Type} {files files' : Files} {x : Except Report α} {a : α}
    (h : files.unchanged x = .ok (a, files')) : x = .ok a ∧ files' = files := by
  cases x with
  | error report => cases h
  | ok a =>
    cases h
    exact ⟨rfl, rfl⟩

theorem Files.unchanged_eq_error {α : Type} {files : Files} {x : Except Report α} {stopped : Stopped}
    (h : files.unchanged x = .error stopped) : x = .error stopped.report ∧ stopped.files = files := by
  cases x with
  | error report =>
    cases h
    exact ⟨rfl, rfl⟩
  | ok a => cases h

namespace Run

/-! A command -/

section Command

variable {env : Environment} {files files' : Files} {request : Request} {host : Host} {p : Prepared} {t : Text}
  {stopped : Stopped}

theorem prepare_eq_ok (h : prepare env files request host = .ok p) :
    settingsPath env request host = .ok p.path ∧ Settings.loadIfAny files p.path = .ok p.settings ∧
      p.settings.renderer request.html = .ok p.renderer := by
  obtain ⟨path, hpath, h⟩ := bind_eq_ok h
  obtain ⟨s, hload, h⟩ := bind_eq_ok h
  obtain ⟨renderer, hrenderer, h⟩ := bind_eq_ok h
  cases h
  exact ⟨hpath, hload, hrenderer⟩

theorem prepare_of_load {path : Text} {s : Settings} {r : Renderer}
    (hpath : settingsPath env request host = .ok path) (hload : Settings.loadIfAny files path = .ok s)
    (hrenderer : s.renderer request.html = .ok r) :
    prepare env files request host = .ok ⟨path, s, r⟩ := by
  simp only [prepare, hpath, hload, hrenderer, bind, Except.bind, pure, Except.pure]

theorem act_of_prepare (h : prepare env files request host = .ok p) :
    act env files request host = command files p request.action host := by
  rw [act, h]
  rfl

/-- Of the commands only `config` may change files. -/
theorem command_eq_ok {action : Action} (h : command files p action host = .ok (t, files')) :
    (∀ create, action ≠ .settings create) ∧ files' = files ∨
      ∃ create, action = .settings create ∧
        Command.settings p.settings files p.path create host.refusals = .ok (t, files') := by
  cases action with
  | settings create => exact .inr ⟨create, rfl, h⟩
  | list source => exact .inl ⟨nofun, (Files.unchanged_eq_ok h).2⟩
  | value word => exact .inl ⟨nofun, (Files.unchanged_eq_ok h).2⟩
  | snapshot path => exact .inl ⟨nofun, (Files.unchanged_eq_ok h).2⟩

/-- Where a command ends in a report nothing has been written. -/
theorem command_eq_error {action : Action} (h : command files p action host = .error stopped) :
    stopped.files = files := by
  cases action with
  | settings create => rw [Settings.settings_eq_error h]
  | list source => exact (Files.unchanged_eq_error h).2
  | value word => exact (Files.unchanged_eq_error h).2
  | snapshot path => exact (Files.unchanged_eq_error h).2

theorem act_eq_ok (h : act env files request host = .ok (t, files')) :
    ∃ p, prepare env files request host = .ok p ∧ command files p request.action host = .ok (t, files') := by
  obtain ⟨⟨p, _⟩, hprepare, hcommand⟩ := bind_eq_ok h
  obtain ⟨hprepare, rfl⟩ := Files.unchanged_eq_ok hprepare
  exact ⟨p, hprepare, hcommand⟩

theorem act_eq_error (h : act env files request host = .error stopped) : stopped.files = files := by
  obtain hprepare | ⟨⟨p, _⟩, hprepare, hcommand⟩ := bind_eq_error h
  · exact (Files.unchanged_eq_error hprepare).2
  · obtain ⟨-, rfl⟩ := Files.unchanged_eq_ok hprepare
    exact command_eq_error hcommand

end Command

/-! The logs -/

/-- The logs that a request asks for are set up, with their folder in the second files. -/
structure Ready (env : Environment) (files : Files) (request : Request) (host : Host) (ready : Files) :
    Prop where
  filter : LogFilter.breaks (logFilter env) = false
  folder : request.logFile = true → files.makeFolder (logFolder env) host.refusals = (ready, none) ∧
    (opensLog env && !LogFilter.breaksAnywhere (logFilter env)) = true
  same : request.logFile = false → ready = files

namespace Ready

variable {env : Environment} {files ready : Files} {request : Request} {host : Host}

theorem addsFolders (h : Ready env files request host ready) : AddsFolders files ready := by
  cases hlog : request.logFile with
  | false =>
    rw [h.same hlog]
    exact .refl files
  | true =>
    have hmade := files.addsFolders_makeFolder (logFolder env) host.refusals
    rw [(h.folder hlog).1] at hmade
    exact hmade

theorem ofRequest_eq (h : Ready env files request host ready) :
    ofRequest env files request host = perform env ready request host := by
  rw [ofRequest, if_neg (Bool.eq_false_iff.1 h.filter)]
  cases hlog : request.logFile with
  | false =>
    rw [h.same hlog]
    rfl
  | true =>
    obtain ⟨hmade, hopens⟩ := h.folder hlog
    simp only [if_true, hmade, hopens]

/-- The logs can be set up again as they were, or without a file, even if the machine refuses more by then. -/
theorem again (h : Ready env files request host ready) {env' : Environment} {files' : Files}
    {request' : Request} (host' : Host) (hgrows : Grows ready files') (hfilter : logFilter env' = logFilter env)
    (hlog : request'.logFile = true → request.logFile = true ∧ logFolder env' = logFolder env) :
    Ready env' files' request' host' files' := by
  refine ⟨by rw [hfilter]; exact h.filter, ?_, fun _ => rfl⟩
  intro hlog'
  obtain ⟨hfile, hfolder⟩ := hlog hlog'
  obtain ⟨hmade, hopens⟩ := h.folder hfile
  rw [opensLog, hfolder, hfilter]
  exact ⟨Files.makeFolder_again hmade hgrows, hopens⟩

end Ready

/-- Either the logs are set up, or the request is not carried out. -/
theorem ready_or (env : Environment) (files : Files) (request : Request) (host : Host) :
    (∃ ready, Ready env files request host ready) ∨
      AddsFolders files (ofRequest env files request host).files ∧
        ∀ t, (ofRequest env files request host).ended ≠ .answered t := by
  unfold ofRequest
  cases hfilter : LogFilter.breaks (logFilter env) with
  | true => exact .inr ⟨.refl files, nofun⟩
  | false =>
    cases hlog : request.logFile with
    | false => exact .inl ⟨files, hfilter, fun h => absurd (hlog.symm.trans h) nofun, fun _ => rfl⟩
    | true =>
      have hmade := files.addsFolders_makeFolder (logFolder env) host.refusals
      rcases hfolder : files.makeFolder (logFolder env) host.refusals with ⟨ready, obstacle⟩
      rw [hfolder] at hmade
      cases obstacle with
      | some obstacle => exact .inr ⟨hmade, nofun⟩
      | none =>
        cases hopens : opensLog env && !LogFilter.breaksAnywhere (logFilter env) with
        | true =>
          exact .inl ⟨ready, hfilter, fun _ => ⟨hfolder, hopens⟩, fun h => absurd (hlog.symm.trans h) nofun⟩
        | false => exact .inr ⟨hmade, nofun⟩

/-! A run -/

/-- What a request changes once the logs are set up. -/
theorem perform_files (env : Environment) (files : Files) (request : Request) (host : Host) :
    (perform env files request host).files = files ∨
      request.action = .settings true ∧ (∃ t, (perform env files request host).ended = .answered t) ∧
        ∃ path p, settingsPath env request host = .ok path ∧
          Settings.Adds files path p (perform env files request host).files := by
  unfold perform
  cases hact : act env files request host with
  | error stopped => exact .inl (act_eq_error hact)
  | ok answer =>
    obtain ⟨t, files'⟩ := answer
    obtain ⟨p, hprepare, hcommand⟩ := act_eq_ok hact
    obtain ⟨-, rfl⟩ | ⟨create, haction, hsettings⟩ := command_eq_ok hcommand
    · exact .inl rfl
    · obtain ⟨-, ⟨rfl, -⟩ | ⟨rfl, habsent, hsave⟩⟩ := Settings.settings_eq_ok hsettings
      · exact .inl rfl
      · obtain ⟨hpath, hload, -⟩ := prepare_eq_ok hprepare
        rw [Settings.loadIfAny, if_neg (Bool.eq_false_iff.1 habsent), Except.ok.injEq] at hload
        rw [← hload] at hsave
        exact .inr ⟨haction, ⟨t, rfl⟩, p.path, (Settings.adds_of_save habsent hsave).imp fun _ h => ⟨hpath, h⟩⟩

theorem grows_perform (env : Environment) (files : Files) (request : Request) (host : Host) :
    Grows files (perform env files request host).files := by
  obtain h | ⟨-, -, path, p, -, h⟩ := perform_files env files request host
  · rw [h]
    exact .refl files
  · exact h.grows

theorem ofRequest_files (env : Environment) (files : Files) (request : Request) (host : Host) :
    AddsFolders files (ofRequest env files request host).files ∨
      request.action = .settings true ∧ (∃ t, (ofRequest env files request host).ended = .answered t) ∧
        ∃ path p, settingsPath env request host = .ok path ∧
          Settings.Adds files path p (ofRequest env files request host).files := by
  obtain ⟨ready, hready⟩ | ⟨hfiles, -⟩ := ready_or env files request host
  · rw [hready.ofRequest_eq]
    obtain hfiles | ⟨haction, hended, path, p, hpath, hadds⟩ := perform_files env ready request host
    · rw [hfiles]
      exact .inl hready.addsFolders
    · exact .inr ⟨haction, hended, path, p, hpath, hadds.after hready.addsFolders⟩
  · exact .inl hfiles

/-- The program is asked for the default settings to be written, there is nothing under their path, and the
path leads to the place. -/
def Creates (env : Environment) (files : Files) (args : List Text) (host : Host) (p : Place) : Prop :=
  ∃ seen request path, environment env files = some seen ∧
    CommandLine.read (seen.get? "EDB_INSPECT_CONFIG".toList) args = .ok request ∧
    request.action = .settings true ∧ settingsPath seen request host = .ok path ∧
    files.contains path = false ∧ (ofArguments env files args host).files.place path = .ok p

theorem ofArguments_of_read {env seen : Environment} {files : Files} {args : List Text}
    {request : Request} (hseen : environment env files = some seen)
    (hread : CommandLine.read (seen.get? "EDB_INSPECT_CONFIG".toList) args = .ok request) (host : Host) :
    ofArguments env files args host = ofRequest seen files request host := by
  simp only [ofArguments, hseen, withEnvironment, hread]

/-- What a run does to files, all told. -/
theorem ofArguments_files (env : Environment) (files : Files) (args : List Text) (host : Host) :
    AddsFolders files (ofArguments env files args host).files ∨
      (∃ t, (ofArguments env files args host).ended = .answered t) ∧
        ∃ p, Creates env files args host p ∧ files.node? p = none ∧
          Grows files (ofArguments env files args host).files ∧
          ∀ q, (ofArguments env files args host).files.file? q =
            if q = p then some Settings.defaultBytes else files.file? q := by
  cases hseen : environment env files with
  | none =>
    left
    rw [ofArguments, hseen]
    exact .refl files
  | some seen =>
    cases hread : CommandLine.read (seen.get? "EDB_INSPECT_CONFIG".toList) args with
    | error ending =>
      left
      simp only [ofArguments, hseen, withEnvironment, hread]
      cases ending with
      | misuse => exact .refl files
      | version => exact .refl files
      | help => exact .refl files
    | ok request =>
      have hrequest := ofArguments_of_read hseen hread host
      obtain hfiles | ⟨haction, hended, path, p, hpath, hadds⟩ := ofRequest_files seen files request host
      · left
        rw [hrequest]
        exact hfiles
      · right
        rw [← hrequest] at hended hadds
        exact ⟨hended, p, ⟨seen, request, path, hseen, hread, haction, hpath, hadds.absent, hadds.place⟩,
          hadds.vacant, hadds.grows, hadds.file?⟩

theorem grows_ofArguments (env : Environment) (files : Files) (args : List Text) (host : Host) :
    Grows files (ofArguments env files args host).files := by
  obtain h | ⟨-, p, -, -, h, -⟩ := ofArguments_files env files args host
  · exact h.toGrows
  · exact h

/-- A start of the program: the variables and the arguments it is given, and what its machine gives and
refuses then. -/
structure Start where
  env : Environment
  args : List Text
  host : Host

/-- The files after the program was started a number of times. -/
def after (files : Files) (starts : List Start) : Files :=
  starts.foldl (fun files start => (ofArguments start.env files start.args start.host).files) files

theorem grows_after (files : Files) (starts : List Start) : Grows files (after files starts) := by
  induction starts generalizing files with
  | nil => exact .refl files
  | cons start starts ih =>
    exact (grows_ofArguments start.env files start.args start.host).trans (ih _)

/-! The same text again -/

/-- Settings that `config --init` has shown are in their file then. -/
theorem load_of_shown {env : Environment} {files files' : Files} {request : Request} {host : Host} {t : Text}
    (haction : request.action = .settings true) (h : act env files request host = .ok (t, files')) :
    ∃ path s book, settingsPath env request host = .ok path ∧ s.addressBook = .ok book ∧
      t = Command.settingsText s path ∧ Settings.load files' path = .ok s := by
  obtain ⟨p, hprepare, hcommand⟩ := act_eq_ok h
  obtain ⟨hpath, hload, hrenderer⟩ := prepare_eq_ok hprepare
  obtain ⟨hother, -⟩ | ⟨create, hcreate, hsettings⟩ := command_eq_ok hcommand
  · exact absurd haction (hother true)
  · cases haction.symm.trans hcreate
    obtain ⟨book, hbook, -⟩ := map_eq_ok hrenderer
    obtain ⟨ht, hfiles⟩ := Settings.settings_eq_ok hsettings
    refine ⟨p.path, p.settings, book, hpath, hbook, ht, ?_⟩
    obtain ⟨rfl, hcontains⟩ | ⟨-, -, hsave⟩ := hfiles
    · rw [Settings.loadIfAny, if_pos (hcontains rfl)] at hload
      exact hload
    · exact Settings.load_of_save hsave

/-- Settings that are in their file are shown as they are, and nothing needs to be written. -/
theorem act_of_load {env : Environment} {files : Files} {request : Request} {host : Host} {path : Text}
    {s : Settings} {book : AddressBook} {create : Bool} (haction : request.action = .settings create)
    (hpath : settingsPath env request host = .ok path) (hload : Settings.load files path = .ok s)
    (hbook : s.addressBook = .ok book) :
    act env files request host = .ok (Command.settingsText s path, files) := by
  have hcontains := Settings.contains_of_load hload
  have hprepare := prepare_of_load hpath (Settings.loadIfAny_of_load hload)
    (Settings.renderer_of_addressBook hbook request.html)
  rw [act_of_prepare hprepare, haction]
  change Command.settings s files path create host.refusals = _
  rw [Command.settings, if_neg (fun h => by simp [hcontains] at h)]
  rfl

/-- What `config --init` has shown it shows again in files that have grown, for the same path and with
the logs set up as they were or without a file. The machine may refuse all by then. -/
theorem shown_again {seen seen' : Environment} {files later : Files} {request request' : Request}
    {host host' : Host} {t : Text} (haction : request.action = .settings true)
    (h : (ofRequest seen files request host).ended = .answered t)
    (hlater : Grows (ofRequest seen files request host).files later)
    (haction' : request'.action = .settings true)
    (hpath : settingsPath seen' request' host' = settingsPath seen request host)
    (hfilter : logFilter seen' = logFilter seen)
    (hlog : request'.logFile = true → request.logFile = true ∧ logFolder seen' = logFolder seen) :
    (ofRequest seen' later request' host').ended = .answered t := by
  obtain ⟨ready, hready⟩ | ⟨-, hended⟩ := ready_or seen files request host
  · rw [hready.ofRequest_eq] at h hlater
    have hready' := hready.again host' ((grows_perform seen ready request host).trans hlater) hfilter hlog
    unfold perform at h hlater
    cases hact : act seen ready request host with
    | error stopped =>
      rw [hact] at h
      cases h
    | ok answer =>
      obtain ⟨t', files'⟩ := answer
      rw [hact] at h hlater
      cases h
      obtain ⟨path, s, book, hpath₁, hbook, rfl, hload⟩ := load_of_shown haction hact
      have hload' := Settings.load_of_grows hlater hload
      rw [hready'.ofRequest_eq, perform, act_of_load haction' (hpath.trans hpath₁) hload' hbook]
  · exact absurd h (hended t)

/-- Runs never damage files, whatever machines refuse. Whatever starts there are, a file that is there keeps
its bytes, at its place and under every path that leads to it. A run that has other files at the end has one
more, and was asked for the default settings where nothing was; one that ends in a report prints nothing and
has the same files. What `config --init` shows it shows again later, for the same path and with the variables
that the logs depend on as they were. -/
theorem files_kept :
    (∀ (files : Files) (starts : List Start),
      (∀ p bytes, files.file? p = some bytes → (after files starts).file? p = some bytes) ∧
      ∀ path bytes, files.read? path = some bytes → (after files starts).read? path = some bytes) ∧
    (∀ (env : Environment) (files : Files) (args : List Text) (host : Host) (p : Place),
      (ofArguments env files args host).files.file? p ≠ files.file? p →
        Creates env files args host p ∧ files.node? p = none ∧
        (ofArguments env files args host).files.file? p = some (Text.utf8 (Settings.toToml {})) ∧
        ∀ q, (ofArguments env files args host).files.file? q ≠ files.file? q → q = p) ∧
    (∀ (env : Environment) (files : Files) (args : List Text) (host : Host) (report : Report),
      (ofArguments env files args host).ended = .reported report →
        (ofArguments env files args host).output = [] ∧
        (ofArguments env files args host).files.file? = files.file?) ∧
    ∀ (env env' seen seen' : Environment) (files : Files) (args args' : List Text) (host host' : Host)
      (starts : List Start) (request request' : Request) (t : Text),
      environment env files = some seen →
      CommandLine.read (seen.get? "EDB_INSPECT_CONFIG".toList) args = .ok request →
      request.action = .settings true →
      (ofArguments env files args host).ended = .answered t →
      let later := after (ofArguments env files args host).files starts
      environment env' later = some seen' →
      CommandLine.read (seen'.get? "EDB_INSPECT_CONFIG".toList) args' = .ok request' →
      request'.action = .settings true →
      settingsPath seen' request' host' = settingsPath seen request host →
      logFilter seen' = logFilter seen →
      (request'.logFile = true → request.logFile = true ∧ logFolder seen' = logFolder seen) →
      (ofArguments env' later args' host').ended = .answered t := by
  refine ⟨?_, ?_, ?_, ?_⟩
  · intro files starts
    have hgrows := grows_after files starts
    exact ⟨fun _ _ h => hgrows.file? h, fun _ _ h => hgrows.read? h⟩
  · intro env files args host p hp
    obtain h | ⟨-, p', hcreates, hnone, -, hfile⟩ := ofArguments_files env files args host
    · exact absurd (congrFun h.file?_eq p) hp
    · have hchanged : ∀ q, (ofArguments env files args host).files.file? q ≠ files.file? q → q = p' := by
        intro q hq
        by_contra hne
        exact hq ((hfile q).trans (if_neg hne))
      obtain rfl := hchanged p hp
      exact ⟨hcreates, hnone, (hfile p).trans (if_pos rfl), hchanged⟩
  · intro env files args host report hreport
    refine ⟨by rw [output, hreport], ?_⟩
    obtain h | ⟨⟨t, ht⟩, -⟩ := ofArguments_files env files args host
    · exact h.file?_eq
    · cases hreport.symm.trans ht
  · intro env env' seen seen' files args args' host host' starts request request' t hseen hread haction hended
      later hseen' hread' haction' hpath hfilter hlog
    rw [ofArguments_of_read hseen hread] at hended
    have hgrows : Grows (ofRequest seen files request host).files later := by
      rw [← ofArguments_of_read hseen hread]
      exact grows_after _ starts
    rw [ofArguments_of_read hseen' hread']
    exact shown_again haction hended hgrows haction' hpath hfilter hlog

/-- One file in the working folder. -/
def oneFile : Files := { nodes := [(["note".toList], .file [0x6f])] }

/-- The arguments that ask for the default settings at `s`. -/
def initArgs : List Text := ["config".toList, "--config".toList, "s".toList, "--init".toList]

/-- The arguments that ask for a word to be shown that is none. -/
def wrongArgs : List Text := ["value".toList, "x".toList]

/-- A machine with a home folder for the account, on which nothing can be made. -/
def full : Host where
  home? := some "/home".toList
  refusals _ := some "No space left on device (os error 28)".toList

theorem files_kept_oneFile :
    (after oneFile [⟨Keyed.empty, initArgs, {}⟩]).file? ["note".toList] = some [0x6f] ∧
    (after oneFile [⟨Keyed.empty, wrongArgs, full⟩]).read? "note".toList = some [0x6f] ∧
    Creates Keyed.empty oneFile initArgs {} ["s".toList] ∧
    ((ofArguments Keyed.empty oneFile initArgs full).ended = .reported (.unwritableSettings "s".toList) ∧
      (ofArguments Keyed.empty oneFile initArgs full).output = [] ∧
      (ofArguments Keyed.empty oneFile initArgs full).files.file? = oneFile.file?) ∧
    ((ofArguments Keyed.empty oneFile wrongArgs {}).ended = .reported .noHome ∧
      (ofArguments Keyed.empty oneFile wrongArgs {}).files.file? = oneFile.file?) ∧
    (ofArguments Keyed.empty
      (after (ofArguments Keyed.empty oneFile initArgs {}).files [⟨Keyed.empty, wrongArgs, full⟩])
        initArgs full).ended = .answered (Command.settingsText {} "s".toList) := by
  obtain ⟨hkept, hchanged, hreported, hagain⟩ := files_kept
  refine ⟨?_, ?_, ?_, ⟨rfl, ?_⟩, ⟨rfl, ?_⟩, ?_⟩
  · exact (hkept oneFile _).1 _ _ rfl
  · exact (hkept oneFile _).2 _ _ rfl
  · exact (hchanged _ _ _ _ ["s".toList] (by decide)).1
  · exact hreported _ _ _ _ (.unwritableSettings "s".toList) rfl
  · exact (hreported _ _ _ _ .noHome rfl).2
  · exact hagain Keyed.empty Keyed.empty Keyed.empty Keyed.empty oneFile initArgs initArgs {} full _
      ⟨some "s".toList, false, false, .settings true⟩ ⟨some "s".toList, false, false, .settings true⟩ _
      rfl rfl rfl rfl rfl rfl rfl rfl rfl nofun

end Run

end StepScope
