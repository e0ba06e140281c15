import DebugSession.Proofs.Host.Links
import DebugSession.Proofs.Session.Opening

/-!
Command files found by two routes. The file in the home directory is left out just if it is the one in the
working directory, so that each file there is runs once, however links and paths lead to it.
-/

namespace DebugSession

namespace InitScript

variable {files : Files} {Takes : Path → Prop} {cwd home p q : Path} {name : Path}

/-- Where a command file is looked for, the working directory first. -/
def routes (cwd : Path) (home : Option Path) (name : String) : List Path :=
  cwd.join (.ofText name) :: (home.map (·.join (.ofText name))).toList

theorem sameFile_of_samePlace (h : files.SamePlace p q) : sameFile files p q := by
  obtain ⟨a, b, ha, hb, hab⟩ := h
  rw [sameFile, ha, hb]
  exact hab

/-- A file that is left out is where the other one is. The text stands in for the place only where there is
no file, since a path of the same text leads to a file that is there. -/
theorem samePlace_of_sameFile (h : files.Linked Takes)
    (hs : sameFile files (cwd.join name) (home.join name)) {text : String}
    (hread : files.readText (home.join name) = .ok text) :
    files.SamePlace (cwd.join name) (home.join name) := by
  obtain ⟨b, hb⟩ := h.placed hread
  rw [sameFile, hb] at hs
  cases ha : files.canonical? (cwd.join name) with
  | some a =>
    rw [ha] at hs
    exact ⟨a, b, ha, hb, hs⟩
  | none =>
    rw [ha] at hs
    have hplace := h.spelled hs (Path.namesDirectory_join hs)
    rw [ha, hb] at hplace
    cases hplace

theorem candidates_some (files : Files) (cwd home : Path) (name : String) :
    candidates files cwd (some home) name =
      if sameFile files (cwd.join (.ofText name)) (home.join (.ofText name))
        then [cwd.join (.ofText name)] else routes cwd (some home) name :=
  rfl

theorem candidates_sublist (files : Files) (cwd : Path) (home : Option Path) (name : String) :
    (candidates files cwd home name).Sublist (routes cwd home name) := by
  cases home with
  | none => exact List.Sublist.refl _
  | some home =>
    rw [candidates_some]
    split
    · exact (List.nil_sublist _).cons_cons _
    · exact List.Sublist.refl _

/-- What two candidates lead to, if both can be read, are different places. -/
theorem candidates_pairwise (h : files.Linked Takes) (cwd : Path) (home : Option Path) (name : String) :
    (candidates files cwd home name).Pairwise fun p q ↦
      ∀ text text', files.readText p = .ok text → files.readText q = .ok text' →
        ∃ a b, files.canonical? p = some a ∧ files.canonical? q = some b ∧ a.sameText b = false := by
  cases home with
  | none => exact List.pairwise_singleton _ _
  | some home =>
    rw [candidates_some]
    split
    · exact List.pairwise_singleton _ _
    next hn =>
      refine List.pairwise_pair.mpr fun text text' hp hq ↦ ?_
      obtain ⟨a, ha⟩ := h.placed hp
      obtain ⟨b, hb⟩ := h.placed hq
      refine ⟨a, b, ha, hb, ?_⟩
      rw [← Bool.not_eq_true]
      exact fun hab ↦ hn (sameFile_of_samePlace ⟨a, b, ha, hb, hab⟩)

theorem samePlace_self (h : files.Linked Takes) {text : String} (hread : files.readText p = .ok text) :
    files.SamePlace p p := by
  obtain ⟨a, ha⟩ := h.placed hread
  exact ⟨a, a, ha, ha, a.sameText_refl⟩

/-- A file that can be read by some route is listed by a path that leads to it, and that path reads it if
the system takes it. -/
theorem candidates_cover (h : files.Linked Takes) {home : Option Path} {name : String} {route : Path}
    (hroute : route ∈ routes cwd home name) {text : String} (hread : files.readText route = .ok text) :
    ∃ path ∈ candidates files cwd home name,
      files.SamePlace path route ∧ (Takes path → files.readText path = .ok text) := by
  have hself (hm : route ∈ candidates files cwd home name) : ∃ path ∈ candidates files cwd home name,
      files.SamePlace path route ∧ (Takes path → files.readText path = .ok text) :=
    ⟨route, hm, samePlace_self h hread, fun _ ↦ hread⟩
  cases home with
  | none => exact hself hroute
  | some home =>
    rw [candidates_some] at hself ⊢
    split at hself
    next hs =>
      rw [if_pos hs]
      rcases List.mem_cons.mp hroute with rfl | hroute
      · exact hself List.mem_cons_self
      · obtain rfl := List.mem_singleton.mp hroute
        have hplace := samePlace_of_sameFile h hs hread
        exact ⟨_, List.mem_cons_self, hplace, h.found hplace hread⟩
    next hs =>
      rw [if_neg hs]
      exact hself hroute

end InitScript

namespace Session

variable {σ : Type} {env : Environment} {ctx : Context} {lines : List String} {paths : List Path}
  {deeds deeds' : List Deed} {log log' : List Call} {on : Bool} {r : Except Fault (Bool × Context)}

/-- Calls that no command file is run behind: a line that quits or fails, and a notice about a file that
the output does not take. -/
def Stops : Call → Prop
  | .execute _ _ (.ok (signal, _)) => signal = .quit
  | .execute _ _ (.error _) => True
  | .write _ (.error _) => True
  | _ => False

/-- `log` goes through what is to be done, in order and each of it once. It does all of it if it goes `on`,
and otherwise it ends with a call that stops it. -/
structure Follows (deeds : List Deed) (log : List Call) (on : Bool) : Prop where
  begins : log.map deed <+: deeds
  done : on = true → log.map deed = deeds
  stopped : on = false → ∃ call, log.getLast? = some call ∧ Stops call

namespace Follows

theorem nil : Follows [] [] true := ⟨List.prefix_refl _, fun _ ↦ rfl, nofun⟩

theorem one (call : Call) : Follows [deed call] [call] true :=
  ⟨List.prefix_refl _, fun _ ↦ rfl, nofun⟩

theorem stop (call : Call) (h : Stops call) (deeds : List Deed) :
    Follows (deed call :: deeds) [call] false :=
  ⟨List.prefix_append [deed call] deeds, nofun, fun _ ↦ ⟨call, rfl, h⟩⟩

theorem append (h : Follows deeds log true) (h' : Follows deeds' log' on) :
    Follows (deeds ++ deeds') (log ++ log') on where
  begins := by
    rw [List.map_append, h.done rfl]
    exact (List.prefix_append_right_inj _).mpr h'.begins
  done hon := by rw [List.map_append, h.done rfl, h'.done hon]
  stopped hon := by
    obtain ⟨call, hlast, hstops⟩ := h'.stopped hon
    exact ⟨call, by rw [List.getLast?_append, hlast, Option.some_or], hstops⟩

theorem cut (h : Follows deeds log false) (more : List Deed) : Follows (deeds ++ more) log false where
  begins := h.begins.trans (List.prefix_append deeds more)
  done := nofun
  stopped := h.stopped

end Follows

def goesOn : Except Fault (Bool × Context) → Bool
  | .ok (false, _) => true
  | _ => false

theorem Obeys.follows (h : Obeys lines ctx log r) : Follows (lines.map .line) log (goesOn r) := by
  induction h with
  | nil ctx => exact .nil
  | fault line lines ctx e => exact .stop (.execute ctx line (.error e)) trivial _
  | quit line lines ctx left => exact .stop (.execute ctx line (.ok (.quit, left))) rfl _
  | @cons line lines ctx left signal calls r hs h ih =>
    exact (Follows.one (.execute ctx line (.ok (signal, left)))).append ih

theorem RunsScripts.follows (h : RunsScripts env paths ctx log r) :
    Follows (scriptDeeds env.files paths) log (goesOn r) := by
  have hdeeds (path : Path) (paths : List Path) : scriptDeeds env.files (path :: paths) =
      fileDeeds env.files path ++ scriptDeeds env.files paths := List.flatMap_cons
  induction h with
  | nil ctx => exact .nil
  | missing hr h ih => rwa [hdeeds, fileDeeds_eq, hr]
  | untold paths ctx e' hr =>
    rw [hdeeds, fileDeeds_eq, hr]
    exact .stop (.write _ (.error e')) trivial _
  | unreadable hr h ih =>
    rw [hdeeds, fileDeeds_eq, hr]
    exact (Follows.one (.write _ (.ok ()))).append ih
  | fault paths hr hobeys =>
    rw [hdeeds, fileDeeds_eq, hr]
    exact hobeys.follows.cut _
  | quit paths hr hobeys =>
    rw [hdeeds, fileDeeds_eq, hr]
    exact hobeys.follows.cut _
  | ran hr hobeys h ih =>
    rw [hdeeds, fileDeeds_eq, hr]
    exact hobeys.follows.append ih

/-- The command files of a session whose paths are the candidates, with any services. The candidates that can
be read lead to different places, the one in the working directory before the one in the home directory.
Each file that can be read by either route is listed by one of them, which reads it unless the system does
not take that path. What they ask for is done once and in order, up to a line that quits or fails or a
notice that cannot be shown. -/
theorem command_files_run_once (svc : Services σ) (env : Environment) {Takes : Path → Prop}
    (h : env.files.Linked Takes) (cwd : Path) (home : Option Path) (name : String) (ctx : Context) (s : σ) :
    let routes := InitScript.routes cwd home name
    let paths := InitScript.candidates env.files cwd home name
    let log := (runScripts svc.watched env paths ctx (s, [])).2.2
    paths.Sublist routes ∧
    (paths.Pairwise fun p q ↦ ∀ text text',
      env.files.readText p = .ok text → env.files.readText q = .ok text' →
        ∃ a b, env.files.canonical? p = some a ∧ env.files.canonical? q = some b ∧
          a.sameText b = false) ∧
    (∀ route ∈ routes, ∀ text, env.files.readText route = .ok text →
      ∃ path ∈ paths, env.files.SamePlace path route ∧
        (Takes path → env.files.readText path = .ok text)) ∧
    log.map deed <+: scriptDeeds env.files paths ∧
    (log.map deed = scriptDeeds env.files paths ∨ ∃ call, log.getLast? = some call ∧ Stops call) := by
  intro routes paths log
  obtain ⟨calls, hrun, hscripts⟩ := runScripts_emits svc env paths ctx s []
  have hlog : log = calls := congrArg (·.2.2) hrun
  have hfollows := hscripts.follows
  rw [hlog]
  refine ⟨InitScript.candidates_sublist env.files cwd home name,
    InitScript.candidates_pairwise h cwd home name,
    fun route hroute text ↦ InitScript.candidates_cover h hroute, hfollows.begins, ?_⟩
  cases hon : goesOn (runScripts svc env paths ctx s).1 with
  | true => exact .inl (hfollows.done hon)
  | false => exact .inr (hfollows.stopped hon)

/-- A disk with the file `/h/r`, to which `/w/r` is a link, and with a directory `/v/r`. -/
def sampleDisk : Host.Disk :=
  ⟨[([[0x77]], .directory), ([[0x68]], .directory), ([[0x68], [0x72]], .file (Utf8.encode "i\n") false),
    ([[0x77], [0x72]], .link ⟨[0x2E, 0x2E, 0x2F, 0x68, 0x2F, 0x72]⟩), ([[0x76]], .directory),
    ([[0x76], [0x72]], .directory)]⟩

def sampleFiles : Files := sampleDisk.files [[0x77]]

theorem sampleFiles_linked : sampleFiles.Linked fun p ↦ p.bytes.length < Host.Disk.pathLimit := by
  refine Host.Disk.files_linked sampleDisk fun name hm ↦ ?_
  obtain rfl := List.mem_singleton.mp hm
  exact ⟨⟨by decide, by decide⟩, by decide⟩

theorem find_sampleDisk {path : Path} (h : path = .ofText "/w/r" ∨ path = .ofText "/h/./r" ∨
      path = .ofText "/h/r") :
    sampleDisk.find [[0x77]] path = .ok ([[0x68], [0x72]], .file (Utf8.encode "i\n") false) := by
  have hw : Path.ofText "/w/r" = ⟨[0x2F, 0x77, 0x2F, 0x72]⟩ := by decide +kernel
  have hdot : Path.ofText "/h/./r" = ⟨[0x2F, 0x68, 0x2F, 0x2E, 0x2F, 0x72]⟩ := by decide +kernel
  have hh : Path.ofText "/h/r" = ⟨[0x2F, 0x68, 0x2F, 0x72]⟩ := by decide +kernel
  rw [hw, hdot, hh] at h
  rcases h with rfl | rfl | rfl
  all_goals
    simp [sampleDisk, Host.Disk.find, Host.Disk.locate, Host.Disk.linkLimit, Host.Disk.pathLimit,
      Host.Disk.walk, Host.Disk.get?, Host.Disk.nameLimit, Host.Disk.stepsOf, Path.dot, Path.dotDot,
      Path.names, Path.endsInSlash, Path.slash, Path.isAbsolute, Text.cutAt]
    rfl

theorem find_sampleDisk_directory :
    sampleDisk.find [[0x77]] (.ofText "/v/r") = .ok ([[0x76], [0x72]], .directory) := by
  have hv : Path.ofText "/v/r" = ⟨[0x2F, 0x76, 0x2F, 0x72]⟩ := by decide +kernel
  rw [hv]
  simp [sampleDisk, Host.Disk.find, Host.Disk.locate, Host.Disk.linkLimit, Host.Disk.pathLimit,
    Host.Disk.walk, Host.Disk.get?, Host.Disk.nameLimit, Host.Disk.stepsOf, Path.dot, Path.dotDot,
    Path.names, Path.endsInSlash, Path.slash, Path.isAbsolute, Text.cutAt]
  rfl

theorem sampleFiles_canonical {path : Path} (h : path = .ofText "/w/r" ∨ path = .ofText "/h/./r" ∨
      path = .ofText "/h/r") :
    sampleFiles.canonical? path = some (Host.Disk.pathOf [[0x68], [0x72]]) :=
  congrArg (Option.map Host.Disk.pathOf) (Host.Disk.find_eq_ok_iff.mp (find_sampleDisk h)).2.1

theorem sampleFiles_readText {path : Path} (h : path = .ofText "/w/r" ∨ path = .ofText "/h/./r" ∨
      path = .ofText "/h/r") : sampleFiles.readText path = .ok "i\n" := by
  change sampleDisk.readText [[0x77]] path = _
  rw [Host.Disk.readText, Host.Disk.read, find_sampleDisk h]
  rfl

/-- One file by both routes, by way of a link and of a `.`. -/
theorem command_files_run_once_link :
    let env : Environment := { Environment.bare with files := sampleFiles }
    let cwd := Path.ofText "/w"
    let home := Path.ofText "/h/."
    let paths := InitScript.candidates env.files cwd (some home) "r"
    let svc := Rehearsal.cast (.ok cwd)
    let stage : Rehearsal.Stage := { consoles := .real [] false }
    let log := (runScripts svc.watched env paths { target := .ofText "/app" } (stage, [])).2.2
    (env.files.Linked fun p ↦ p.bytes.length < Host.Disk.pathLimit) ∧ paths = [.ofText "/w/r"] ∧
      (∃ path ∈ paths, env.files.SamePlace path (.ofText "/h/./r") ∧ env.files.readText path = .ok "i\n") ∧
      log.map deed <+: [.line "i"] := by
  intro env cwd home paths svc stage log
  have hhere : cwd.join (.ofText "r") = .ofText "/w/r" := by decide +kernel
  have hthere : home.join (.ofText "r") = .ofText "/h/./r" := by decide +kernel
  have hsame : env.files.SamePlace (cwd.join (.ofText "r")) (home.join (.ofText "r")) := by
    rw [hhere, hthere]
    exact ⟨_, _, sampleFiles_canonical (.inl rfl), sampleFiles_canonical (.inr (.inl rfl)),
      Path.sameText_refl _⟩
  have hpaths : paths = [.ofText "/w/r"] := by
    rw [← hhere]
    exact if_pos (InitScript.sameFile_of_samePlace hsame)
  obtain ⟨-, -, hcover, hbegins, -⟩ := command_files_run_once svc env sampleFiles_linked cwd (some home)
    "r" { target := .ofText "/app" } stage
  obtain ⟨path, hpath, hroute, hread⟩ := hcover (home.join (.ofText "r"))
    (List.mem_cons_of_mem _ List.mem_cons_self) "i\n"
    (by rw [hthere]; exact sampleFiles_readText (.inr (.inl rfl)))
  rw [hthere] at hroute
  have hlength : path.bytes.length < Host.Disk.pathLimit := by
    have hlisted : path ∈ paths := hpath
    rw [hpaths] at hlisted
    obtain rfl := List.mem_singleton.mp hlisted
    decide +kernel
  refine ⟨sampleFiles_linked, hpaths, ⟨path, hpath, hroute, hread hlength⟩, ?_⟩
  have hdeeds : scriptDeeds env.files paths = [.line "i"] := by
    rw [hpaths, scriptDeeds, List.flatMap_singleton, fileDeeds, sampleFiles_readText (.inl rfl)]
    decide +kernel
  rw [← hdeeds]
  exact hbegins

theorem runScripts_unreadable (svc : Services σ) {path : Path} {e : IoError}
    (hr : InitScript.read env.files path = .error e) (paths : List Path) (ctx : Context) :
    runScripts svc env (path :: paths) ctx = (do
      svc.record (.scriptSkipped path e)
      announce svc (.unreadableScript path e)
      runScripts svc env paths ctx) := by
  rw [runScripts, hr]

/-- The directory `/h` behind more slashes than a path may have. -/
theorem candidates_behind_slashes {n : Nat} (hn : Host.Disk.pathLimit ≤ n) :
    let far : Path := ⟨List.replicate n Path.slash ++ [0x68]⟩
    InitScript.candidates sampleFiles far (some (.ofText "/h")) "r" = [far.join (.ofText "r")] ∧
      InitScript.read sampleFiles (far.join (.ofText "r")) = .error (.system .nameTooLong) := by
  intro far
  have hname : Path.ofText "r" = ⟨[0x72]⟩ := by decide +kernel
  have hjoin : (Path.ofText "/h").join (.ofText "r") = .ofText "/h/r" := by decide +kernel
  have hfar : far.join (.ofText "r") = ⟨List.replicate n Path.slash ++ [0x68, 0x2F, 0x72]⟩ := by
    rw [hname, Path.join, if_neg (by decide), if_neg (by simp [far, Path.endsInSlash, Path.slash])]
    simp [far, Path.slash]
  have hroot : (far.join (.ofText "r")).isAbsolute := by
    obtain ⟨m, rfl⟩ : ∃ m, n = m + 1 := ⟨n - 1, by simp only [Host.Disk.pathLimit] at hn; omega⟩
    rw [hfar]
    rfl
  have htext : (far.join (.ofText "r")).sameText ((Path.ofText "/h").join (.ofText "r")) := by
    refine Path.sameText_iff.mpr ⟨?_, ?_, ?_⟩
    · rw [hroot]
      decide +kernel
    · rw [Path.startsHere, hroot, Bool.not_true, Bool.false_and]
      decide +kernel
    · rw [hfar, Path.steps_slashes]
      decide +kernel
  constructor
  · have hplace := sampleFiles_linked.spelled htext (Path.namesDirectory_join htext)
    rw [hjoin, sampleFiles_canonical (.inr (.inr rfl))] at hplace
    refine if_pos (InitScript.sameFile_of_samePlace ⟨_, _, hplace, ?_, Path.sameText_refl _⟩)
    exact (congrArg sampleFiles.canonical? hjoin).trans (sampleFiles_canonical (.inr (.inr rfl)))
  · have hzero : 0 ∉ (far.join (.ofText "r")).bytes := by
      rw [hfar]
      simp [Path.slash]
    have hlong : Host.Disk.pathLimit ≤ (far.join (.ofText "r")).bytes.length := by
      rw [hfar, List.length_append, List.length_replicate]
      exact Nat.le_add_right_of_le hn
    refine read_error ?_ (by decide)
    change sampleDisk.readText [[0x77]] (far.join (.ofText "r")) = _
    rw [Host.Disk.readText, Host.Disk.read, Host.Disk.find_tooLong hzero hlong]
    rfl

/-- Two ways for the home directory's file to stay out although it can be read and nothing was run: the output
does not take the notice about the other one, and the other one is the same by a path that is too long. -/
theorem command_files_left_out :
    let env : Environment := { Environment.bare with files := sampleFiles }
    let home := Path.ofText "/h"
    let far : Path := ⟨List.replicate 4096 Path.slash ++ [0x68]⟩
    let svc := Rehearsal.cast (.ok (.ofText "/v"))
    let ran (cwd : Path) (room : Option Nat) : List String :=
      let paths := InitScript.candidates env.files cwd (some home) "r"
      let log := (runScripts svc.watched env paths { target := .ofText "/app" } ({ room }, [])).2.2
      log.filterMap fun call ↦ (deed call).line?
    env.files.readText (home.join (.ofText "r")) = .ok "i\n" ∧
      ran (.ofText "/v") (some 0) = [] ∧ ran far none = [] := by
  intro env home far svc ran
  have hhome : home.join (.ofText "r") = .ofText "/h/r" := by decide +kernel
  refine ⟨hhome ▸ sampleFiles_readText (.inr (.inr rfl)), ?_, ?_⟩
  · have hplace : env.files.canonical? (.ofText "/v/r") = some (Host.Disk.pathOf [[0x76], [0x72]]) :=
      congrArg (Option.map Host.Disk.pathOf)
        (Host.Disk.find_eq_ok_iff.mp find_sampleDisk_directory).2.1
    have hpaths : InitScript.candidates env.files (.ofText "/v") (some home) "r" =
        [.ofText "/v/r", .ofText "/h/r"] := by
      have hjoin : (Path.ofText "/v").join (.ofText "r") = .ofText "/v/r" := by decide +kernel
      rw [InitScript.candidates_some, InitScript.routes, InitScript.sameFile, hhome, hjoin, hplace,
        sampleFiles_canonical (.inr (.inr rfl))]
      decide +kernel
    have hread : InitScript.read env.files (.ofText "/v/r") = .error (.system .isADirectory) := by
      refine read_error ?_ (by decide)
      change sampleDisk.readText [[0x77]] (.ofText "/v/r") = _
      rw [Host.Disk.readText, Host.Disk.read, find_sampleDisk_directory]
      rfl
    simp only [ran]
    rw [hpaths, runScripts_unreadable _ hread]
    decide +kernel
  · have hlimit : Host.Disk.pathLimit ≤ 4096 := by decide
    obtain ⟨hpaths, hfar⟩ := candidates_behind_slashes hlimit
    have hread : InitScript.read env.files (far.join (.ofText "r")) = .error (.system .nameTooLong) := hfar
    simp only [ran]
    generalize far.join (.ofText "r") = path at hpaths hread
    rw [hpaths, runScripts_unreadable _ hread]
    rfl

end Session

end DebugSession
