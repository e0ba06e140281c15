import DebugSession.Lookup
import DebugSession.Proofs.Path.Join

/-!
Paths named from the home directory. The text behind `~/` is joined to it, so that a relative one stays
below the home directory and an absolute one takes its place.
-/

namespace DebugSession.Lookup

variable {home : Path} {rest text : String}

theorem after?_append (lead rest : String) : Text.after? lead (lead ++ rest) = some rest := by
  have hlead : Text.startsWith (lead ++ rest) lead := by
    rw [Text.startsWith, String.toList_append]
    exact List.isPrefixOf_iff_prefix.mpr (List.prefix_append _ _)
  rw [Text.after?, if_pos hlead, String.toList_append, List.drop_left, String.ofList_toList]

theorem expandTilde_home (home : Path) (rest : String) :
    expandTilde home ("~/" ++ rest) = home.join (.ofText rest) := by
  simp only [expandTilde, after?_append]

theorem expandTilde_plain (h : Text.startsWith text "~/" = false) (home : Option Path) :
    expandTilde home text = .ofText text := by
  simp [expandTilde, Text.after?, h]

/-- `path` is absolute, and its steps begin with those of `home`. -/
def Below (home path : Path) : Prop := path.isAbsolute ∧ home.steps <+: path.steps

instance (home path : Path) : Decidable (Below home path) := inferInstanceAs (Decidable (_ ∧ _))

/-- Where the name of the configuration file comes from. -/
inductive Names : Option String → ConfigPlaces → String → Prop
  | explicit (text : String) (places : ConfigPlaces) : Names (some text) places text
  | named {text : String} {places : ConfigPlaces} (h : places.named = some (Utf8.encode text)) :
      Names none places text

theorem Names.configPath_eq {explicit : Option String} {places : ConfigPlaces}
    (h : Names explicit places text) :
    configPath explicit places = .ok (expandTilde places.home text) := by
  cases h with
  | explicit => rfl
  | named hnamed => rw [configPath, hnamed, Option.bind_some, Utf8.decode?_encode, Option.none_or]

theorem steps_expandTilde_iff (home : Path) (rest : String) :
    (expandTilde home ("~/" ++ rest)).steps = home.steps ++ (Path.ofText rest).steps ↔
      Text.startsWith rest "/" = false ∨ home.steps = [] := by
  rw [expandTilde_home, ← Path.isAbsolute_ofText]
  cases hr : (Path.ofText rest).isAbsolute with
  | false => simp [Path.steps_join hr]
  | true => simp [Path.join_absolute hr]

theorem below_expandTilde_iff (h : home.isAbsolute) (rest : String) :
    Below home (expandTilde home ("~/" ++ rest)) ↔
      Text.startsWith rest "/" = false ∨ home.steps <+: (Path.ofText rest).steps := by
  have habsolute : (home.join (.ofText rest)).isAbsolute := Path.isAbsolute_join h _
  rw [expandTilde_home, Below, ← Path.isAbsolute_ofText, and_iff_right habsolute]
  cases hr : (Path.ofText rest).isAbsolute with
  | false => simp [Path.steps_join hr]
  | true => simp [Path.join_absolute hr]

/-- A text that begins with `~/` names a path in the home directory unless what follows is absolute by
itself: then that is the path. Every other text is a path as it stands, even without a home directory. The
configuration file is where its name leads in this way, be it given on the command line or by the variable. -/
theorem expandTilde_in_home (h : home.isAbsolute) :
    (∀ rest, let path := expandTilde home ("~/" ++ rest)
      path.isAbsolute ∧
      (path.steps = home.steps ++ (Path.ofText rest).steps ↔
        Text.startsWith rest "/" = false ∨ home.steps = []) ∧
      (Text.startsWith rest "/" → path = .ofText rest)) ∧
    (∀ text, Text.startsWith text "~/" = false → ∀ home?, expandTilde home? text = .ofText text) ∧
    ∀ places explicit rest, places.home = some home → Names explicit places ("~/" ++ rest) →
      let path := expandTilde home ("~/" ++ rest)
      configPath explicit places = .ok path ∧
      (Below home path ↔
        Text.startsWith rest "/" = false ∨ home.steps <+: (Path.ofText rest).steps) := by
  refine ⟨fun rest ↦ ⟨?_, steps_expandTilde_iff home rest, ?_⟩,
    fun text htext home? ↦ expandTilde_plain htext home?, ?_⟩
  · rw [expandTilde_home]
    exact Path.isAbsolute_join h _
  · intro hslash
    rw [← Path.isAbsolute_ofText] at hslash
    rw [expandTilde_home, Path.join_absolute hslash]
  · intro places explicit rest hhome hnames
    refine ⟨?_, below_expandTilde_iff h rest⟩
    rw [hnames.configPath_eq, hhome]

/-- The variable names a file behind a home directory that ends in a slash. -/
theorem expandTilde_in_home_variable :
    let home : Path := .ofText "/home/dev/"
    let text := "~/./conf//../app.toml"
    let places : ConfigPlaces := { home, named := some (Utf8.encode text) }
    home.isAbsolute ∧
      (expandTilde home text).steps = ["home", "dev", "conf", "..", "app.toml"].map Utf8.encode ∧
      (∃ path, configPath none places = .ok path ∧ Below home path ∧
        path = .ofText "/home/dev/./conf//../app.toml") ∧
      expandTilde home "~dev/x" = .ofText "~dev/x" := by
  intro home text places
  have hhome : home.isAbsolute := by decide +kernel
  obtain ⟨hexpand, hplain, hconfig⟩ := expandTilde_in_home hhome
  obtain ⟨-, hsteps, -⟩ := hexpand "./conf//../app.toml"
  obtain ⟨hpath, hbelow⟩ := hconfig places none "./conf//../app.toml" rfl (.named rfl)
  refine ⟨hhome, ?_, ⟨_, hpath, ?_, by decide +kernel⟩, hplain _ (by decide +kernel) _⟩
  · exact (hsteps.mpr (.inl (by decide +kernel))).trans (by decide +kernel)
  · exact hbelow.mpr (.inl (by decide +kernel))

/-- Two slashes behind the tilde lead out of the home directory. -/
theorem expandTilde_leaves_home :
    let home : Path := .ofText "/home/dev"
    let path := expandTilde home "~//etc/app.toml"
    home.isAbsolute ∧ path = .ofText "/etc/app.toml" ∧
      path.steps ≠ home.steps ++ (Path.ofText "/etc/app.toml").steps ∧
      configPath (some "~//etc/app.toml") { home } = .ok path ∧ ¬Below home path := by
  intro home path
  exact ⟨by decide +kernel, by decide +kernel, by decide +kernel, rfl, by decide +kernel⟩

end DebugSession.Lookup
