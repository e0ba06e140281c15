import DebugSession.Host.Services
import DebugSession.Proofs.Text.Lines

/-!
The failure that is made of a run which does not end well. A report says a failure line by line, so that what
is read from it is the failure.
-/

namespace DebugSession

namespace Engine

open Text

/-- A line as failures have them: it has something on it, no blanks around that, and is not several. -/
structure IsSpoken (line : String) : Prop where
  ne_empty : line ≠ ""
  trim_eq : trim line = line
  oneLine : ∀ c ∈ line.toList, isNewline c = false

theorem speakingLines_eq (text : String) : speakingLines text =
    ((cutAfter isNewline text.toList).map fun line ↦ trim (String.ofList line)).filter (· ≠ "") := by
  -- A line end is blank, so that trimming would take it along in any case.
  rw [speakingLines, lines, List.map_map]
  simp only [Function.comp_def, trim_dropLineEnd]

theorem isSpoken_of_mem {text line : String} (h : line ∈ speakingLines text) : IsSpoken line := by
  rw [speakingLines_eq, List.mem_filter, List.mem_map] at h
  obtain ⟨⟨piece, hpiece, rfl⟩, hne⟩ := h
  refine ⟨of_decide_eq_true hne, trim_trim _, ?_⟩
  intro c hc
  rw [trim, String.toList_ofList, String.toList_ofList] at hc
  have hblank : ∀ c, isNewline c → isBlank c := by
    intro c hnewline
    obtain rfl : c = '\n' := of_decide_eq_true hnewline
    rfl
  exact mem_trimEnd_of_cutAfter hblank hpiece (mem_trimEnd_of_mem_trimBoth hc)

/-- What a text with a line in front of it says. The line may be behind blanks. -/
theorem speakingLines_cons {lead line : String}
    (hlead : ∀ c ∈ lead.toList, isBlank c ∧ isNewline c = false) (hline : IsSpoken line)
    (rest : String) :
    speakingLines (lead ++ line ++ "\n" ++ rest) = line :: speakingLines rest := by
  have hplain : ∀ c ∈ (lead ++ line).toList, isNewline c = false := by
    intro c hc
    rw [String.toList_append] at hc
    obtain hc | hc := List.mem_append.mp hc
    · exact (hlead c hc).2
    · exact hline.oneLine c hc
  have hcut : cutAfter isNewline (lead ++ line ++ "\n" ++ rest).toList =
      ((lead ++ line).toList ++ ['\n']) :: cutAfter isNewline rest.toList := by
    rw [String.toList_append, String.toList_append, List.append_assoc]
    exact cutAfter_append_cons hplain rfl rest.toList
  have htrim : trim (String.ofList ((lead ++ line).toList ++ ['\n'])) = line := by
    have hnewline : ∀ c ∈ ['\n'], isBlank c := List.forall_mem_singleton.mpr rfl
    rw [trim_append_blank hnewline, String.ofList_toList, trim, String.toList_append,
      trimBoth_junk_append fun c hc ↦ (hlead c hc).1]
    exact hline.trim_eq
  rw [speakingLines_eq, hcut, List.map_cons, htrim,
    List.filter_cons_of_pos (by simpa using hline.ne_empty), ← speakingLines_eq]

theorem speakingLines_frames {frames : List String} (h : ∀ frame ∈ frames, IsSpoken frame) :
    speakingLines (String.join (frames.map fun frame ↦ "\t" ++ frame ++ "\n")) = frames := by
  induction frames with
  | nil => rfl
  | cons frame frames ih =>
    rw [List.forall_mem_cons] at h
    have htab : ∀ c ∈ "\t".toList, isBlank c ∧ isNewline c = false :=
      List.forall_mem_singleton.mpr ⟨rfl, rfl⟩
    rw [List.map_cons, String.join_cons, speakingLines_cons htab h.1, ih h.2]

theorem speakingLines_report {f : RunFailure} (h : ∀ line ∈ f.message :: f.backtrace, IsSpoken line) :
    speakingLines f.report = f.message :: f.backtrace := by
  rw [List.forall_mem_cons] at h
  have hempty : ∀ c ∈ "".toList, isBlank c ∧ isNewline c = false := fun c hc ↦ absurd hc List.not_mem_nil
  have hmessage := speakingLines_cons hempty h.1
    (String.join (f.backtrace.map fun frame ↦ "\t" ++ frame ++ "\n"))
  rw [String.empty_append, speakingLines_frames h.2] at hmessage
  exact hmessage

theorem failureOf_eq_iff {said : String} (h : speakingLines said ≠ []) (script : Path) (e : ChildEnd)
    (f : RunFailure) :
    failureOf said script e = f ↔ speakingLines said = f.message :: f.backtrace := by
  obtain ⟨message, backtrace⟩ := f
  rw [failureOf]
  cases hsaid : speakingLines said with
  | nil => exact absurd hsaid h
  | cons first rest => simp

end Engine

namespace Host

/-- A child as a run of a script sees it: what it writes to its error channel, and how it ends. -/
structure Run where
  said : Bytes
  ends : ChildEnd

namespace Run

def ofChild (c : Child) : Run := ⟨c.outputs.getD 1 [], c.finalEnd⟩

/-- The lines that the child said, trimmed, without the empty ones. -/
def spoken (run : Run) : List String := Engine.speakingLines (Utf8.decodeLossy run.said)

/-- A failure and a text about it that keep what a failed run said: the lines are in the failure, the text
has the same lines, and what is read from the text is the failure. Of a run that said nothing, there is how
it ended. -/
structure Kept (run : Run) (script : Path) (failure : RunFailure) (text : Bytes) : Prop where
  spoken : run.spoken ≠ [] → run.spoken = failure.message :: failure.backtrace
  shown : run.spoken ≠ [] → Engine.speakingLines (Utf8.decodeLossy text) = run.spoken
  read : run.spoken ≠ [] → ∀ script e, Engine.failureOf (Utf8.decodeLossy text) script e = failure
  exited : run.spoken = [] → ∀ status, run.ends = .exited status →
    failure = ⟨script.text ++ " exited with status " ++ Decimal.text status.toNat, []⟩
  killed : run.spoken = [] → ∀ signal, run.ends = .killed signal →
    failure = ⟨script.text ++ " was terminated by a signal", []⟩

theorem kept_report (run : Run) (script : Path) :
    let failure := Engine.failureOf (Utf8.decodeLossy run.said) script run.ends
    run.Kept script failure (Utf8.encode failure.report) := by
  intro failure
  have hspoken : run.spoken ≠ [] → run.spoken = failure.message :: failure.backtrace :=
    fun hsaid ↦ (Engine.failureOf_eq_iff hsaid script run.ends failure).mp rfl
  have hreport : run.spoken ≠ [] →
      Engine.speakingLines (Utf8.decodeLossy (Utf8.encode failure.report)) = run.spoken := by
    intro hsaid
    rw [Utf8.decodeLossy_encode, hspoken hsaid]
    refine Engine.speakingLines_report fun line hline ↦ ?_
    rw [← hspoken hsaid] at hline
    exact Engine.isSpoken_of_mem hline
  have hsilent : run.spoken = [] → failure = ⟨Engine.silentMessage script run.ends, []⟩ := by
    intro hsaid
    rw [spoken] at hsaid
    simp only [failure, Engine.failureOf, hsaid]
  refine ⟨hspoken, hreport, ?_, ?_, ?_⟩
  · intro hsaid script' e
    refine (Engine.failureOf_eq_iff ?_ script' e failure).mpr ?_
    · rwa [hreport hsaid]
    · rw [hreport hsaid, hspoken hsaid]
  · intro hsaid status hends
    rw [hsilent hsaid, hends]
    rfl
  · intro hsaid signal hends
    rw [hsilent hsaid, hends]
    rfl

end Run

namespace Machine

variable {m m' : Machine} {child : Child}

theorem runChild_note {order : Order} {outputs : Nat} (e : Event)
    (h : m.runChild order outputs = .ok (child, m')) :
    (m.note e).runChild order outputs = .ok (child, m'.note e) := by
  obtain ⟨disk, input, hrunner, rfl⟩ := runChild_eq_ok_iff.mp h
  exact runChild_eq_ok_iff.mpr ⟨disk, input, hrunner, rfl⟩

theorem load_of_failed {engine : Engine} {ctx : Context} {stop : Bool} (hstarted : engine.started)
    (hrun : m.runChild (runOrder engine ctx stop) 2 = .ok (child, m'))
    (hends : child.finalEnd.isSuccess = false) :
    let run := Run.ofChild child
    (m.load engine ctx stop).1 =
      .ok (some (Engine.failureOf (Utf8.decodeLossy run.said) ctx.target run.ends)) := by
  intro run
  rw [load, hstarted, hrun]
  simp only [Bool.not_true, Bool.false_eq_true, if_false, hends]
  rfl

end Machine

end Host

end DebugSession
