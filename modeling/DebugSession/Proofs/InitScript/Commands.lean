import DebugSession.InitScript
import DebugSession.Proofs.Text.Lines

/-!
The commands of a command file. A file of two parts with a newline between them has the commands of the one
and then those of the other; everything else about them is told by a single line.
-/

namespace DebugSession.InitScript

variable {command : String} {line cs : List Char} {commands : List String}

section Lines

/-- The command in a line, if there is one. -/
def commandOf (line : List Char) : List String :=
  if isCommand (Text.trim (.ofList line)) then [Text.trim (.ofList line)] else []

def commandsOf (cs : List Char) : List String := (Text.cutAfter Text.isNewline cs).flatMap commandOf

theorem parse_eq (path : Path) (text : String) : parse path text = ⟨path, commandsOf text.toList⟩ := by
  have htrim : Text.trim ∘ String.ofList ∘ Text.dropLineEnd = Text.trim ∘ String.ofList := by
    funext line
    exact Text.trim_dropLineEnd line
  rw [parse, Text.lines, List.map_map, htrim, commandsOf]
  congr 1
  induction Text.cutAfter Text.isNewline text.toList with
  | nil => rfl
  | cons line rest ih =>
    rw [List.map_cons, List.filter_cons, List.flatMap_cons, ← ih, commandOf, Function.comp_apply]
    split <;> rfl

theorem commandOf_append_blank {c : Char} (hc : Text.isBlank c) (line : List Char) :
    commandOf (line ++ [c]) = commandOf line := by
  rw [commandOf, commandOf, Text.trim_append_blank (by simpa using hc)]

theorem commandsOf_line (h : ∀ c ∈ line, Text.isNewline c = false) :
    commandsOf line = commandOf line := by
  by_cases hne : line = []
  · subst hne
    decide +kernel
  · have hcut := Text.cutAfter_append hne h []
    rw [List.append_nil] at hcut
    rw [commandsOf, hcut]
    exact List.append_nil _

theorem commandsOf_line_append (h : ∀ c ∈ line, Text.isNewline c = false) (rest : List Char) :
    commandsOf (line ++ '\n' :: rest) = commandOf line ++ commandsOf rest := by
  rw [commandsOf, Text.cutAfter_append_cons h (by decide), List.flatMap_cons,
    commandOf_append_blank (by decide), commandsOf]

theorem commandsOf_append (cs ds : List Char) :
    commandsOf (cs ++ '\n' :: ds) = commandsOf cs ++ commandsOf ds := by
  induction cs using Text.line_induction with
  | last line h => rw [commandsOf_line_append h, commandsOf_line h]
  | next line rest h ih =>
    rw [List.append_assoc, List.cons_append, commandsOf_line_append h, ih,
      commandsOf_line_append h, List.append_assoc]

/-- A blank at the end of the text makes no difference, a carriage return for one. -/
theorem commandsOf_append_blank {c : Char} (hc : Text.isBlank c) (hline : Text.isNewline c = false)
    (cs : List Char) : commandsOf (cs ++ [c]) = commandsOf cs := by
  induction cs using Text.line_induction with
  | last line h =>
    have hplain : ∀ d ∈ line ++ [c], Text.isNewline d = false := by
      intro d hd
      obtain hd | hd := List.mem_append.mp hd
      · exact h d hd
      · exact List.mem_singleton.mp hd ▸ hline
    rw [commandsOf_line hplain, commandsOf_line h, commandOf_append_blank hc]
  | next line rest h ih =>
    rw [List.append_assoc, List.cons_append, commandsOf_line_append h, commandsOf_line_append h, ih]

end Lines

section Canonical

/-- A command as a parsed file has it: within one line, without blanks at its ends, and no comment. -/
structure IsCanonical (command : String) : Prop where
  ne_empty : command ≠ ""
  newline_notMem : '\n' ∉ command.toList
  not_blank_head : ∀ c ∈ command.toList.head?, Text.isBlank c = false
  not_blank_last : ∀ c ∈ command.toList.getLast?, Text.isBlank c = false
  head_ne_mark : command.toList.head? ≠ some '#'

theorem startsWith_mark_iff : Text.startsWith command "#" ↔ command.toList.head? = some '#' := by
  rw [Text.startsWith, show "#".toList = ['#'] from by decide +kernel]
  cases command.toList with
  | nil => decide
  | cons c cs =>
    simp only [List.isPrefixOf_cons_cons, List.isPrefixOf_nil_left, Bool.and_true, beq_iff_eq,
      List.head?_cons, Option.some.injEq]
    exact eq_comm

theorem isCommand_iff : isCommand command ↔ command ≠ "" ∧ command.toList.head? ≠ some '#' := by
  rw [isCommand, Bool.and_eq_true, decide_eq_true_eq, Bool.not_eq_true', ← Bool.not_eq_true,
    startsWith_mark_iff]

theorem IsCanonical.commandOf_eq (h : IsCanonical command) : commandOf command.toList = [command] := by
  have htrim : Text.trim command = command := by
    rw [Text.trim, Text.trimBoth_eq_self h.not_blank_head h.not_blank_last, String.ofList_toList]
  rw [commandOf, String.ofList_toList, htrim, if_pos (isCommand_iff.mpr ⟨h.ne_empty, h.head_ne_mark⟩)]

theorem isCanonical_of_mem_commandOf (hline : ∀ c ∈ line, Text.isNewline c = false)
    (h : command ∈ commandOf line) : IsCanonical command := by
  rw [commandOf, List.mem_ite_nil_right, List.mem_singleton] at h
  obtain ⟨hcommand, rfl⟩ := h
  obtain ⟨hne, hmark⟩ := isCommand_iff.mp hcommand
  have hchars : (Text.trim (.ofList line)).toList = Text.trimBoth Text.isBlank line := by
    rw [Text.trim, String.toList_ofList, String.toList_ofList]
  refine ⟨hne, ?_, ?_, ?_, hmark⟩
  · rw [hchars]
    intro hm
    have hnewline := hline '\n' (Text.mem_of_mem_trimEnd (Text.mem_trimEnd_of_mem_trimBoth hm))
    cases hnewline
  · intro c hc
    rw [hchars] at hc
    exact Text.not_junk_of_ends (.inl hc)
  · intro c hc
    rw [hchars] at hc
    exact Text.not_junk_of_ends (.inr hc)

theorem isCanonical_of_mem (h : command ∈ commandsOf cs) : IsCanonical command := by
  induction cs using Text.line_induction with
  | last line hline =>
    rw [commandsOf_line hline] at h
    exact isCanonical_of_mem_commandOf hline h
  | next line rest hline ih =>
    rw [commandsOf_line_append hline, List.mem_append] at h
    obtain h | h := h
    · exact isCanonical_of_mem_commandOf hline h
    · exact ih h

/-- One command on each line. -/
theorem commandsOf_intercalate (h : ∀ command ∈ commands, IsCanonical command) :
    commandsOf ("\n".intercalate commands).toList = commands := by
  have hline (command) (hm : command ∈ commands) : commandsOf command.toList = [command] := by
    have hcommand := h command hm
    refine (commandsOf_line fun c hc ↦ ?_).trans hcommand.commandOf_eq
    have hne : c ≠ '\n' := ne_of_mem_of_not_mem hc hcommand.newline_notMem
    simpa [Text.isNewline] using hne
  induction commands with
  | nil => decide +kernel
  | cons command rest ih =>
    cases rest with
    | nil =>
      rw [String.intercalate_singleton]
      exact hline command List.mem_cons_self
    | cons next rest =>
      have hrest := ih (fun c hc ↦ h c (List.mem_cons_of_mem command hc))
        fun c hc ↦ hline c (List.mem_cons_of_mem command hc)
      have hchars : ("\n".intercalate (command :: next :: rest)).toList =
          command.toList ++ '\n' :: ("\n".intercalate (next :: rest)).toList := by
        rw [String.intercalate_cons_cons]
        simp
      rw [hchars, commandsOf_append, hline command List.mem_cons_self, hrest, List.singleton_append]

/-- Commands of text that is put together are put together, whichever way its lines end. A file that has
one canonical command on each line is what a parsed file may be written back as. -/
theorem parse_decodes (path : Path) :
    (∀ a b, (parse path (a ++ "\n" ++ b)).commands =
      (parse path a).commands ++ (parse path b).commands) ∧
    (∀ a b, parse path (a ++ "\r\n" ++ b) = parse path (a ++ "\n" ++ b)) ∧
    (∀ text, ∀ command ∈ (parse path text).commands, IsCanonical command) ∧
    (∀ commands, (∀ command ∈ commands, IsCanonical command) →
      (parse path ("\n".intercalate commands)).commands = commands) ∧
    ∀ text, parse path ("\n".intercalate (parse path text).commands) = parse path text := by
  have hcanonical : ∀ text, ∀ command ∈ (parse path text).commands, IsCanonical command := by
    intro text command h
    rw [parse_eq] at h
    exact isCanonical_of_mem h
  have hback : ∀ commands, (∀ command ∈ commands, IsCanonical command) →
      parse path ("\n".intercalate commands) = ⟨path, commands⟩ := by
    intro commands h
    rw [parse_eq, commandsOf_intercalate h]
  refine ⟨?_, ?_, hcanonical, fun commands h ↦ by rw [hback commands h], ?_⟩
  · intro a b
    rw [parse_eq, parse_eq, parse_eq, ← commandsOf_append]
    simp
  · intro a b
    have hreturn : (a ++ "\r\n" ++ b).toList = (a.toList ++ ['\r']) ++ '\n' :: b.toList := by simp
    have hplain : (a ++ "\n" ++ b).toList = a.toList ++ '\n' :: b.toList := by simp
    rw [parse_eq, parse_eq, hreturn, hplain, commandsOf_append, commandsOf_append,
      commandsOf_append_blank (by decide) (by decide)]
  · intro text
    rw [hback _ (hcanonical text), parse_eq]

/-- Nothing is in the lines with a comment or with blanks alone, and a carriage return may be within a
command. -/
theorem parse_decodes_two_commands :
    let path := Path.ofText ".rc"
    let commands := ["set a on", "b\rc"]
    (∀ command ∈ commands, IsCanonical command) ∧
      (parse path "# all\n set a on\r\n\u2003\n\t# off\n\nb\rc ").commands = commands ∧
      (parse path "set a on\nb\rc").commands = commands := by
  intro path commands
  obtain ⟨-, -, hcanonical, hback, -⟩ := parse_decodes path
  have hcommands : (parse path "# all\n set a on\r\n\u2003\n\t# off\n\nb\rc ").commands = commands := by
    decide +kernel
  have hall := hcanonical "# all\n set a on\r\n\u2003\n\t# off\n\nb\rc "
  rw [hcommands] at hall
  exact ⟨hall, hcommands, hback commands hall⟩

end Canonical

end DebugSession.InitScript
