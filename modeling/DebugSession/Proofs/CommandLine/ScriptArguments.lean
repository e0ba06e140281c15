import DebugSession.CommandLine.Parse
import Mathlib.Data.List.TakeWhile

/-!
Where the script's own arguments begin. Options in front of the script are judged one by one, and what
they say is told by their list alone. Behind the script, options go on being read until the first
argument that is none, so that an option directly behind the script is the debugger's.
-/

namespace DebugSession.CommandLine

/-! ### Options as they are written -/

@[simp]
def Flag.letter : Flag → Char
  | .version => 'v'
  | .help => 'h'
  | .quit => 'q'
  | .rc => 'x'
  | .postMortem => 'm'
  | .trace => 't'
  | .noStop => 'n'

@[simp]
def Flag.name : Flag → String
  | .version => "version"
  | .help => "help"
  | .quit => "quit"
  | .rc => "rc"
  | .postMortem => "post-mortem"
  | .trace => "trace"
  | .noStop => "no-stop"

@[simp]
def Slot.name : Slot → String
  | .remote => "remote"
  | .config => "config"
  | .logLevel => "log-level"

/-- Whether the one value of an option is in order. `--remote` takes one or two and is left out. -/
def Slot.Takes : Slot → String → Prop
  | .remote, _ => False
  | .config, _ => True
  | .logLevel, value => (LogLevel.ofName? value).isSome

/-- One thing that an option asks for. -/
inductive Wish where
  | raise (f : Flag)
  | give (slot : Slot) (value : String)
  deriving DecidableEq, Repr

def Wish.kind : Wish → Kind
  | .raise f => .flag f
  | .give slot _ => .slot slot

@[simp]
def Wish.value? (slot : Slot) : Wish → Option String
  | .raise _ => none
  | .give s value => if s = slot then some value else none

inductive Written where
  /-- `-q`, `-qx` -/
  | letters (first : Flag) (more : List Flag)
  /-- `--quit` -/
  | long (f : Flag)
  /-- `--config=PATH` -/
  | joined (slot : Slot) (value : String)
  /-- `--config PATH` -/
  | apart (slot : Slot) (value : String)
  deriving DecidableEq, Repr

namespace Written

def args : Written → List String
  | .letters f fs => [String.ofList ('-' :: (f :: fs).map Flag.letter)]
  | .long f => ["--" ++ f.name]
  | .joined slot value => ["--" ++ slot.name ++ "=" ++ value]
  | .apart slot value => ["--" ++ slot.name, value]

def wishes : Written → List Wish
  | .letters f fs => (f :: fs).map .raise
  | .long f => [.raise f]
  | .joined slot value => [.give slot value]
  | .apart slot value => [.give slot value]

/-- A value of its own argument must not look like an option. -/
def Valid : Written → Prop
  | .letters _ _ => True
  | .long _ => True
  | .joined slot value => slot.Takes value
  | .apart slot value => slot.Takes value ∧ (value.toList = ['-'] ∨ value.toList.head? ≠ some '-')

end Written

instance : DecidableRel Slot.Takes
  | .remote, _ => inferInstanceAs (Decidable False)
  | .config, _ => inferInstanceAs (Decidable True)
  | .logLevel, value => inferInstanceAs (Decidable ((LogLevel.ofName? value).isSome = true))

instance : DecidablePred Written.Valid
  | .letters _ _ => inferInstanceAs (Decidable True)
  | .long _ => inferInstanceAs (Decidable True)
  | .joined slot value => inferInstanceAs (Decidable (slot.Takes value))
  | .apart slot value => inferInstanceAs
      (Decidable (slot.Takes value ∧ (value.toList = ['-'] ∨ value.toList.head? ≠ some '-')))

/-- What a command line asks for with these options, this script and these arguments of the script. -/
def asked (said : List Wish) (script : Option String) (args : List String) : Invocation where
  options := {
    version := .raise .version ∈ said
    help := .raise .help ∈ said
    remote := none
    quit := .raise .quit ∈ said
    rc := .raise .rc ∈ said
    postMortem := .raise .postMortem ∈ said
    trace := .raise .trace ∈ said
    stop := .raise .noStop ∉ said
    target := script
    scriptArgs := args }
  config := said.findSome? (Wish.value? .config)
  logLevel := ((said.findSome? (Wish.value? .logLevel)).bind LogLevel.ofName?).getD .warn

variable {said : List Wish} {script : Option String} {d e : Draft} {f : Flag} {slot : Slot}
  {value : String} {os us : List Written} {xs : List String}

/-! ### Arguments as tokens -/

theorem ofShort?_letter (f : Flag) : ofShort? f.letter = some (.flag f) := by
  cases f <;> decide

theorem ofLong?_flag (f : Flag) : ofLong? f.name = some (.flag f) := by
  cases f <;> simp [ofLong?, optionNames]

theorem ofLong?_slot (slot : Slot) : ofLong? slot.name = some (.slot slot) := by
  cases slot <;> simp [ofLong?, optionNames]

theorem Token.ofArgument_letters (f : Flag) (fs : List Flag) :
    Token.ofArgument (String.ofList ('-' :: (f :: fs).map Flag.letter)) =
      .short ((f :: fs).map Flag.letter) := by
  unfold Token.ofArgument
  cases f <;> simp

/-- Behind two dashes stands a name, which ends at the first `=`. -/
theorem Token.ofArgument_dashes {name : String} (hne : name ≠ "") (hplain : '=' ∉ name.toList) :
    Token.ofArgument ("--" ++ name) = .long name none ∧
      ∀ value, Token.ofArgument ("--" ++ name ++ "=" ++ value) = .long name (some value) := by
  have hname : ∀ c ∈ name.toList, decide (c ≠ '=') := by
    intro c hc
    simpa using fun h : c = '=' ↦ hplain (h ▸ hc)
  have hcut (value : List Char) : (name.toList ++ '=' :: value).dropWhile (· ≠ '=') = '=' :: value ∧
      (name.toList ++ '=' :: value).takeWhile (· ≠ '=') = name.toList := by
    rw [List.dropWhile_append_of_pos hname, List.takeWhile_append_of_pos hname]
    simp
  obtain ⟨c, cs, hcs⟩ := List.exists_cons_of_ne_nil (mt String.toList_eq_nil_iff.mp hne)
  constructor
  · have hall := List.dropWhile_eq_nil_iff.mpr hname
    have harg : ("--" ++ name).toList = '-' :: '-' :: name.toList := by simp
    rw [Token.ofArgument, harg]
    rw [hcs] at hall ⊢
    simp only [hall]
    rw [← hcs, String.ofList_toList]
  · intro value
    have harg : ("--" ++ name ++ "=" ++ value).toList =
        '-' :: '-' :: (name.toList ++ '=' :: value.toList) := by
      simp
    obtain ⟨hdrop, htake⟩ := hcut value.toList
    rw [Token.ofArgument, harg]
    rw [hcs, List.cons_append] at hdrop htake ⊢
    simp only [hdrop, htake]
    rw [← hcs, String.ofList_toList, String.ofList_toList]

theorem Token.ofArgument_flag (f : Flag) : Token.ofArgument ("--" ++ f.name) = .long f.name none :=
  (ofArgument_dashes (by cases f <;> simp) (by cases f <;> simp)).1

theorem Token.ofArgument_slot (slot : Slot) :
    Token.ofArgument ("--" ++ slot.name) = .long slot.name none ∧
      ∀ value, Token.ofArgument ("--" ++ slot.name ++ "=" ++ value) = .long slot.name (some value) :=
  ofArgument_dashes (by cases slot <;> simp) (by cases slot <;> simp)

theorem Token.ofArgument_plain (h : value.toList = ['-'] ∨ value.toList.head? ≠ some '-') :
    Token.ofArgument value = .plain := by
  unfold Token.ofArgument
  split <;> simp_all

/-! ### What a draft says -/

@[simp]
def Wish.flag? : Wish → Option Flag
  | .raise f => some f
  | .give _ _ => none

/-- The draft of these options with nothing left to judge. -/
def Draft.saying (said : List Wish) (script : Option String) : Draft where
  flags := (said.filterMap Wish.flag?).reverse
  config := said.findSome? (Wish.value? .config)
  logLevel := (said.findSome? (Wish.value? .logLevel)).bind LogLevel.ofName?
  script := script

/-- A draft that takes no more values, and what it comes to once its last option is judged. -/
structure Draft.Tells (d : Draft) (said : List Wish) (script : Option String) : Prop where
  settled : d.settle = .ok (saying said script)
  full : ∀ value, d.feed? value = none

theorem Draft.saying_tells (said : List Wish) (script : Option String) :
    (saying said script).Tells said script :=
  ⟨rfl, fun _ ↦ rfl⟩

theorem mem_flags : f ∈ said.filterMap Wish.flag? ↔ .raise f ∈ said := by
  rw [List.mem_filterMap]
  constructor
  · rintro ⟨_ | _, h, he⟩
    · cases he
      exact h
    · cases he
  · exact fun h ↦ ⟨.raise f, h, rfl⟩

/-- An option that is given once has not been given before. -/
theorem fresh_of_nodup {s : Wish} {rest : List Wish}
    (h : ((said ++ s :: rest).map Wish.kind).Nodup) : s.kind ∉ said.map Wish.kind := by
  rw [List.map_append, List.map_cons] at h
  exact fun hm ↦ (List.nodup_append.mp h).2.2 _ hm _ List.mem_cons_self rfl

theorem findSome?_value (h : .slot slot ∉ said.map Wish.kind) :
    said.findSome? (Wish.value? slot) = none := by
  rw [List.findSome?_eq_none_iff]
  rintro (_ | ⟨other, value⟩) hm
  · rfl
  · refine if_neg fun he ↦ h ?_
    exact he ▸ List.mem_map_of_mem hm

namespace Draft

theorem raise_tells (hd : d.Tells said script) (hf : .flag f ∉ said.map Wish.kind) :
    d.raise f = .ok (saying (said ++ [.raise f]) script) := by
  have hn : .raise f ∉ said := fun h ↦ hf (List.mem_map_of_mem (f := Wish.kind) h)
  simp only [raise, hd.settled, bind, Except.bind]
  rw [if_neg (by simpa [saying] using mt mem_flags.mp hn)]
  simp [saying, Wish.flag?, Wish.value?, pure, Except.pure]

/-- An option's only value is judged alike, whether in the same argument or in the next. -/
theorem assign_saying (hv : slot.Takes value) (hf : .slot slot ∉ said.map Wish.kind) :
    (saying said script).assign slot [value] = .ok (saying (said ++ [.give slot value]) script) := by
  have hn := findSome?_value hf
  cases slot with
  | remote => exact hv.elim
  | config => simp [assign, saying, hn]
  | logLevel =>
    obtain ⟨level, hl⟩ := Option.isSome_iff_exists.mp hv
    simp [assign, saying, hn, hl]

theorem attach_tells (hd : d.Tells said script) (hv : slot.Takes value)
    (hf : .slot slot ∉ said.map Wish.kind) :
    d.attach slot value = .ok (saying (said ++ [.give slot value]) script) := by
  simp only [attach, hd.settled, bind, Except.bind]
  exact assign_saying hv hf

/-- The draft between an option and its value. -/
def awaiting (said : List Wish) (script : Option String) (slot : Slot) (values : List String) : Draft :=
  { saying said script with pending := some ⟨slot, values⟩ }

theorem await_tells (hd : d.Tells said script) :
    d.await slot = .ok (awaiting said script slot []) := by
  simp only [await, hd.settled, bind, Except.bind]
  rfl

theorem feed?_awaiting (value : String) :
    (awaiting said script slot []).feed? value = some (awaiting said script slot [value]) := by
  cases slot <;> rfl

theorem awaiting_tells (hv : slot.Takes value) (hf : .slot slot ∉ said.map Wish.kind) :
    (awaiting said script slot [value]).Tells (said ++ [.give slot value]) script where
  settled := assign_saying hv hf
  full := by
    cases slot with
    | remote => exact hv.elim
    | config => exact fun _ ↦ rfl
    | logLevel => exact fun _ ↦ rfl

theorem cluster_tells (hd : d.Tells said script) {fs : List Flag}
    (hn : ((said ++ fs.map Wish.raise).map Wish.kind).Nodup) :
    ∃ e, d.cluster (fs.map Flag.letter) = .ok e ∧ e.Tells (said ++ fs.map Wish.raise) script := by
  induction fs generalizing d said with
  | nil => exact ⟨d, rfl, by simpa using hd⟩
  | cons f fs ih =>
    have hf := fresh_of_nodup hn
    have hc : said ++ (f :: fs).map .raise = (said ++ [.raise f]) ++ fs.map .raise :=
      List.append_cons said _ _
    rw [hc] at hn ⊢
    obtain ⟨e, he, ht⟩ := ih (saying_tells (said ++ [.raise f]) script) hn
    refine ⟨e, ?_, ht⟩
    rw [List.map_cons, cluster]
    simp only [ofShort?_letter, raise_tells hd hf, he]

end Draft

/-! ### Reading options -/

/-- What the readers in front of the script and behind it have in common. -/
structure ReadsOptions (read : Draft → List String → Except UsageError Draft) : Prop where
  long {arg name : String} {value : Option String} {kind : Kind}
    (ha : Token.ofArgument arg = .long name value) (hk : ofLong? name = some kind)
    (d : Draft) (args : List String) :
    read d (arg :: args) = (d.long kind value).bind (read · args)
  short {arg : String} {letters : List Char} (ha : Token.ofArgument arg = .short letters)
    (hk : ∀ c ∈ letters, (ofShort? c).isSome) (d : Draft) (args : List String) :
    read d (arg :: args) = (d.cluster letters).bind (read · args)
  value {arg : String} {d e : Draft} (ha : Token.ofArgument arg = .plain) (hf : d.feed? arg = some e)
    (args : List String) :
    read d (arg :: args) = read e args

theorem readOptions_readsOptions : ReadsOptions readOptions where
  long ha hk d args := by simp only [readOptions, ha, hk]
  short ha _ d args := by simp only [readOptions, ha]
  value ha hf args := by simp only [readOptions, ha, hf]

theorem readAfterScript_readsOptions : ReadsOptions readAfterScript where
  long ha hk d args := by simp [readAfterScript, ha, hk, Token.isKnown]
  short ha hk d args := by
    have hall : Token.isKnown (.short _) = true := List.all_eq_true.mpr hk
    simp only [readAfterScript, ha, hall, if_true]
  value ha hf args := by simp [readAfterScript, ha, hf, Token.isKnown]

namespace ReadsOptions

variable {read : Draft → List String → Except UsageError Draft}

theorem step (hr : ReadsOptions read) (hd : d.Tells said script) {w : Written} (hv : w.Valid)
    (hn : ((said ++ w.wishes).map Wish.kind).Nodup) :
    ∃ e, e.Tells (said ++ w.wishes) script ∧ ∀ rest, read d (w.args ++ rest) = read e rest := by
  cases w with
  | letters f fs =>
    obtain ⟨e, hc, he⟩ := Draft.cluster_tells hd hn
    refine ⟨e, he, fun rest ↦ ?_⟩
    have hk : ∀ c ∈ (f :: fs).map Flag.letter, (ofShort? c).isSome := by
      intro c hm
      obtain ⟨g, -, rfl⟩ := List.mem_map.mp hm
      rw [ofShort?_letter]
      rfl
    exact (hr.short (Token.ofArgument_letters f fs) hk d rest).trans (by rw [hc]; rfl)
  | long f =>
    refine ⟨_, Draft.saying_tells _ _, fun rest ↦ ?_⟩
    refine (hr.long (Token.ofArgument_flag f) (ofLong?_flag f) d rest).trans ?_
    rw [Draft.long, Draft.raise_tells hd (fresh_of_nodup hn)]
    rfl
  | joined slot value =>
    refine ⟨_, Draft.saying_tells _ _, fun rest ↦ ?_⟩
    refine (hr.long ((Token.ofArgument_slot slot).2 value) (ofLong?_slot slot) d rest).trans ?_
    rw [Draft.long, Draft.attach_tells hd hv (fresh_of_nodup hn)]
    rfl
  | apart slot value =>
    refine ⟨_, Draft.awaiting_tells hv.1 (fresh_of_nodup hn), fun rest ↦ ?_⟩
    refine (hr.long (Token.ofArgument_slot slot).1 (ofLong?_slot slot) d (value :: rest)).trans ?_
    rw [Draft.long, Draft.await_tells hd]
    exact hr.value (Token.ofArgument_plain hv.2) (Draft.feed?_awaiting value) rest

theorem run (hr : ReadsOptions read) (hd : d.Tells said script) (hv : ∀ w ∈ os, w.Valid)
    (hn : ((said ++ os.flatMap Written.wishes).map Wish.kind).Nodup) :
    ∃ e, e.Tells (said ++ os.flatMap Written.wishes) script ∧
      ∀ rest, read d (os.flatMap Written.args ++ rest) = read e rest := by
  induction os generalizing d said with
  | nil => exact ⟨d, by simpa using hd, fun rest ↦ rfl⟩
  | cons w os ih =>
    rw [List.flatMap_cons, ← List.append_assoc] at hn ⊢
    obtain ⟨e, he, hstep⟩ := hr.step hd (hv w List.mem_cons_self) (by
      rw [List.map_append] at hn
      exact (List.nodup_append.mp hn).1)
    obtain ⟨e', he', hrun⟩ := ih he (fun v hm ↦ hv v (List.mem_cons_of_mem w hm)) hn
    refine ⟨e', he', fun rest ↦ ?_⟩
    rw [List.flatMap_cons, List.append_assoc, hstep, hrun]

end ReadsOptions

/-! ### The script and what stands behind it -/

theorem Draft.toInvocation_saying (said : List Wish) (script : Option String) (xs : List String) :
    { saying said script with scriptArgs := xs }.toInvocation = asked said script xs := by
  simp only [toInvocation, saying, asked, List.contains_eq_mem, List.mem_reverse, mem_flags, decide_not]

theorem readVerbatim_tells (hd : d.Tells said script) (xs : List String) :
    (readVerbatim d xs).map Draft.toInvocation = .ok (asked said script xs) := by
  rw [← Draft.toInvocation_saying]
  cases xs with
  | nil =>
    rw [readVerbatim, hd.settled]
    rfl
  | cons x xs =>
    simp only [readVerbatim, hd.settled]
    rfl

/-- The first argument behind the script that is no option of ours begins the script's own. -/
theorem readAfterScript_unknown (hd : d.Tells said script)
    (hx : ∀ x ∈ xs.head?, (Token.ofArgument x).isKnown = false) :
    readAfterScript d xs = readVerbatim d xs := by
  cases xs with
  | nil => rfl
  | cons x xs => simp only [readAfterScript, hx x rfl, hd.full x, if_false, Bool.false_eq_true]

theorem readAfterScript_escape (d : Draft) (xs : List String) :
    readAfterScript d ("--" :: xs) = readVerbatim d xs := by
  have he : Token.ofArgument "--" = .escape := by simp [Token.ofArgument]
  simp only [readAfterScript, he, Token.isKnown, if_true]

theorem readOptions_script {name : String} (hd : d.Tells said none) (hs : name.toList.head? ≠ some '-')
    (xs : List String) :
    readOptions d (name :: xs) = readAfterScript (Draft.saying said (some name)) xs := by
  simp only [readOptions, Token.ofArgument_plain (.inr hs), hd.full, hd.settled]
  rfl

theorem parse_script {name : String} (hv : ∀ w ∈ os, w.Valid)
    (hn : ((os.flatMap Written.wishes).map Wish.kind).Nodup) (hs : name.toList.head? ≠ some '-')
    (rest : List String) : parse (os.flatMap Written.args ++ name :: rest) =
      (readAfterScript (Draft.saying (os.flatMap Written.wishes) (some name)) rest).map
        Draft.toInvocation := by
  obtain ⟨d, hd, hfront⟩ := readOptions_readsOptions.run (Draft.saying_tells [] none) hv hn
  rw [List.nil_append] at hd
  rw [← readOptions_script hd hs]
  exact congrArg _ (hfront (name :: rest))

/-- Options directly behind the script count as if they stood in front of it. -/
theorem parse_options_behind_script (os us : List Written) {name : String} {rest : List String}
    (hv : ∀ w ∈ os ++ us, w.Valid)
    (hn : (((os ++ us).flatMap Written.wishes).map Wish.kind).Nodup)
    (hs : name.toList.head? ≠ some '-')
    (hx : rest = "--" :: xs ∨ rest = xs ∧ ∀ x ∈ xs.head?, (Token.ofArgument x).isKnown = false) :
    parse (os.flatMap Written.args ++ name :: (us.flatMap Written.args ++ rest)) =
      .ok (asked ((os ++ us).flatMap Written.wishes) (some name) xs) := by
  rw [List.flatMap_append] at hn ⊢
  have hno := hn
  rw [List.map_append] at hno
  obtain ⟨e, he, hback⟩ := readAfterScript_readsOptions.run
    (Draft.saying_tells (os.flatMap Written.wishes) (some name))
    (fun w hm ↦ hv w (List.mem_append_right os hm)) hn
  have hrest : readAfterScript e rest = readVerbatim e xs := by
    obtain rfl | ⟨rfl, hx⟩ := hx
    · exact readAfterScript_escape e xs
    · exact readAfterScript_unknown he hx
  rw [parse_script (fun w hm ↦ hv w (List.mem_append_left us hm)) (List.nodup_append.mp hno).1 hs,
    hback, hrest]
  exact readVerbatim_tells he xs

/-! ### An option behind the script is not among the script's arguments -/

/-- A reading that goes on with the arguments of the script that it began with. -/
def Keeps (d : Draft) (r : Except UsageError Draft) : Prop :=
  ∀ e, r = .ok e → e.scriptArgs = d.scriptArgs

namespace Keeps

theorem ok (h : e.scriptArgs = d.scriptArgs) : Keeps d (.ok e) := by
  rintro _ ⟨⟩
  exact h

theorem error (err : UsageError) : Keeps d (.error err) := by
  rintro _ ⟨⟩

theorem bind {r : Except UsageError Draft} {k : Draft → Except UsageError Draft} (hr : Keeps d r)
    (hk : ∀ e, Keeps e (k e)) : Keeps d (r.bind k) := by
  cases r with
  | error err => exact error err
  | ok e' => exact fun e he ↦ (hk e' e he).trans (hr e' rfl)

theorem assign (d : Draft) (slot : Slot) (values : List String) : Keeps d (d.assign slot values) := by
  unfold Draft.assign
  repeat' split
  all_goals first | exact ok rfl | exact error _

theorem settle (d : Draft) : Keeps d d.settle := by
  unfold Draft.settle
  split
  · exact ok rfl
  · exact assign { d with pending := none } _ _

theorem raise (d : Draft) (f : Flag) : Keeps d (d.raise f) :=
  (settle d).bind fun e ↦ by
    split
    · exact error _
    · exact ok rfl

theorem long (d : Draft) (kind : Kind) (value : Option String) : Keeps d (d.long kind value) := by
  cases kind with
  | flag f =>
    cases value with
    | none => exact raise d f
    | some _ => exact error _
  | slot slot =>
    cases value with
    | none => exact (settle d).bind fun _ ↦ ok rfl
    | some value => exact (settle d).bind fun e ↦ assign e slot [value]

theorem cluster (d : Draft) (letters : List Char) : Keeps d (d.cluster letters) := by
  induction letters generalizing d with
  | nil => exact ok rfl
  | cons c cs ih =>
    unfold Draft.cluster
    split
    · exact error _
    · next f _ =>
      split
      · next e he => exact fun e' he' ↦ (ih e e' he').trans (raise d f e he)
      · exact error _
    · next slot _ =>
      split
      · exact long d (.slot slot) none
      · exact long d (.slot slot) (some _)
      · exact long d (.slot slot) (some _)

end Keeps

theorem feed?_scriptArgs (h : d.feed? value = some e) : e.scriptArgs = d.scriptArgs := by
  unfold Draft.feed? at h
  split at h
  · split at h
    · cases h
      rfl
    · cases h
  · cases h

theorem readVerbatim_length (hd : d.scriptArgs = []) (h : readVerbatim d xs = .ok e) :
    e.scriptArgs.length ≤ xs.length := by
  cases xs with
  | nil => exact Nat.le_of_eq (congrArg List.length ((Keeps.settle d e h).trans hd))
  | cons x xs =>
    change (d.settle.bind fun d ↦ .ok { d with scriptArgs := x :: xs }) = .ok e at h
    cases hs : d.settle with
    | error err =>
      rw [hs] at h
      cases h
    | ok d' =>
      rw [hs] at h
      cases h
      exact Nat.le_refl _

/-- The script is handed no more than what follows it, and less if that begins with an option. -/
theorem readAfterScript_length (hd : d.scriptArgs = []) (h : readAfterScript d xs = .ok e) :
    e.scriptArgs.length ≤ xs.length ∧
      ∀ x ∈ xs.head?, (Token.ofArgument x).isKnown → e.scriptArgs.length < xs.length := by
  induction xs generalizing d with
  | nil =>
    rw [Keeps.settle d e h, hd]
    exact ⟨Nat.le_refl 0, fun x hx ↦ by cases hx⟩
  | cons x xs ih =>
    -- a known option leaves the reading to the arguments behind it
    have hlater : ∀ r, Keeps d r → r.bind (readAfterScript · xs) = .ok e →
        e.scriptArgs.length < (x :: xs).length := by
      intro r hr h
      cases r with
      | error err => cases h
      | ok d' => exact Nat.lt_succ_of_le (ih ((hr d' rfl).trans hd) h).1
    have hknown : (Token.ofArgument x).isKnown → e.scriptArgs.length < (x :: xs).length := by
      intro hx
      simp only [readAfterScript, hx, if_true] at h
      split at h
      · exact Nat.lt_succ_of_le (readVerbatim_length hd h)
      · split at h
        · exact hlater _ (Keeps.long d _ _) h
        · cases h
      · exact hlater _ (Keeps.cluster d _) h
      · cases h
    refine ⟨?_, fun y hy ↦ by cases hy; exact hknown⟩
    by_cases hx : (Token.ofArgument x).isKnown
    · exact Nat.le_of_lt (hknown hx)
    · simp only [readAfterScript, hx, if_false, Bool.false_eq_true] at h
      split at h
      · next d' hf =>
        exact Nat.le_succ_of_le (ih ((feed?_scriptArgs hf).trans hd) h).1
      · exact readVerbatim_length hd h

theorem readAfterScript_known {x : String} (hx : x ∈ xs.head?) (hk : (Token.ofArgument x).isKnown) :
    (readAfterScript (Draft.saying said script) xs).map Draft.toInvocation ≠
      .ok (asked said script xs) := by
  intro h
  cases hr : readAfterScript (Draft.saying said script) xs with
  | error err =>
    rw [hr] at h
    cases h
  | ok e =>
    rw [hr] at h
    have hargs : e.scriptArgs = xs := congrArg (·.options.scriptArgs) (Except.ok.inj h)
    have hshort := (readAfterScript_length rfl hr).2 x hx hk
    rw [hargs] at hshort
    exact Nat.lt_irrefl _ hshort

/-- A command line of options and a script is understood, and what follows the script is the script's own
word for word, exactly if that does not begin with an option of the debugger or with `--`. -/
theorem script_owns_what_follows (os : List Written) (hv : ∀ w ∈ os, w.Valid)
    (hn : ((os.flatMap Written.wishes).map Wish.kind).Nodup) :
    parse (os.flatMap Written.args) = .ok (asked (os.flatMap Written.wishes) none []) ∧
    ∀ name : String, name.toList.head? ≠ some '-' → ∀ xs : List String,
      (parse (os.flatMap Written.args ++ name :: xs) =
          .ok (asked (os.flatMap Written.wishes) (some name) xs) ↔
        ∀ x ∈ xs.head?, (Token.ofArgument x).isKnown = false) := by
  constructor
  · obtain ⟨d, hd, hfront⟩ := readOptions_readsOptions.run (Draft.saying_tells [] none) hv hn
    calc parse (os.flatMap Written.args)
      _ = (readOptions d []).map Draft.toInvocation := by
        rw [← hfront [], List.append_nil]
        rfl
      _ = d.settle.map Draft.toInvocation := by rw [readOptions]
      _ = .ok (asked _ none []) := by
        rw [hd.settled]
        exact congrArg _ (Draft.toInvocation_saying _ none [])
  · intro name hs xs
    rw [parse_script hv hn hs]
    constructor
    · intro h x hx
      rw [← Bool.not_eq_true]
      exact fun hk ↦ readAfterScript_known hx hk h
    · intro hx
      have htells := Draft.saying_tells (os.flatMap Written.wishes) (some name)
      rw [readAfterScript_unknown htells hx]
      exact readVerbatim_tells htells xs

theorem script_owns_what_follows_options :
    parse ["-tx", "--config", "c.toml", "--log-level=debug", "app.rb", "in.txt", "-q", "--help", "--"] =
      .ok {
        options := {
          rc := true
          trace := true
          target := some "app.rb"
          scriptArgs := ["in.txt", "-q", "--help", "--"] }
        config := some "c.toml"
        logLevel := .debug } := by
  let os : List Written :=
    [.letters .trace [.rc], .apart .config "c.toml", .joined .logLevel "debug"]
  have hlevel : LogLevel.ofName? "debug" = some .debug := rfl
  have hv : ∀ w ∈ os, w.Valid := by simp [os, Written.Valid, Slot.Takes, hlevel]
  have hn : ((os.flatMap Written.wishes).map Wish.kind).Nodup := by decide
  have hargs : os.flatMap Written.args = ["-tx", "--config", "c.toml", "--log-level=debug"] := rfl
  have hown : (Token.ofArgument "in.txt").isKnown = false := by
    rw [Token.ofArgument_plain (by simp), Token.isKnown]
  have h := ((script_owns_what_follows os hv hn).2 "app.rb" (by simp)
    ["in.txt", "-q", "--help", "--"]).mpr (by simpa using hown)
  rw [hargs] at h
  exact h.trans rfl

/-- An option directly behind the script never reaches it, nor does a `--`. -/
theorem script_loses_options_behind_it :
    parse ["app.rb", "-q"] ≠ .ok (asked [] (some "app.rb") ["-q"]) ∧
    parse ["app.rb", "--", "-q"] ≠ .ok (asked [] (some "app.rb") ["--", "-q"]) := by
  have hv : ∀ w ∈ ([] : List Written), w.Valid := List.forall_mem_nil _
  have hscript (xs : List String) : parse ("app.rb" :: xs) =
      (readAfterScript (Draft.saying [] (some "app.rb")) xs).map Draft.toInvocation :=
    parse_script hv List.nodup_nil (by simp) xs
  rw [hscript, hscript]
  constructor
  · exact readAfterScript_known rfl (by simp [Token.ofArgument, Token.isKnown, ofShort?, optionNames])
  · exact readAfterScript_known rfl (by simp [Token.ofArgument, Token.isKnown])

end DebugSession.CommandLine
