import DebugSession.Host.Services

/-!
A check of a script in two parts: the child that it starts, and what it makes of that child. A child that is
seen to have ended counts by its end, and one that is still running behind the limit by that.
-/

namespace DebugSession

section Wait

variable {limit : Duration} {look : Nat → Poll} {looks round : Nat}

theorem awaitEnd_ended {e : ChildEnd} (h : awaitEnd limit look looks round = some (some e)) :
    ∃ n, (look n).ended? = some e := by
  induction looks generalizing round with
  | zero => cases h
  | succ looks ih =>
    rw [awaitEnd] at h
    split at h
    next hend =>
      cases h
      exact ⟨round, hend⟩
    next =>
      split at h
      · cases h
      · exact ih h

theorem awaitEnd_expired (h : awaitEnd limit look looks round = some none) :
    ∃ n, (look n).ended? = none ∧ limit.toNanos < (look n).elapsed := by
  induction looks generalizing round with
  | zero => cases h
  | succ looks ih =>
    rw [awaitEnd] at h
    split at h
    · cases h
    next hend =>
      split at h
      next hlate => exact ⟨round, hend, hlate⟩
      next => exact ih h

/-- On a clock that keeps the pace there are looks enough. -/
theorem awaitEnd_settles (hpace : ∀ n, n * pollInterval ≤ (look n).elapsed) (hpos : 0 < looks)
    (hlooks : limit.looks ≤ round + looks) : awaitEnd limit look looks round ≠ none := by
  induction looks generalizing round with
  | zero => omega
  | succ looks ih =>
    rw [awaitEnd]
    split
    · nofun
    split
    · nofun
    next hearly =>
      have hround : round ≤ limit.toNanos / pollInterval := by
        rw [Nat.le_div_iff_mul_le (by decide)]
        exact Nat.le_trans (hpace round) (Nat.not_lt.mp hearly)
      rw [Duration.looks] at hlooks
      refine ih ?_ ?_
      · omega
      · rw [Duration.looks]
        omega

end Wait

/-- A child as a check sees it: what each look at it tells, how it ends when nobody stops it, and what it
writes. The looks do not lie, and there is a pause between one and the next. -/
structure Trial where
  look : Nat → Poll
  ends : ChildEnd
  output : Bytes
  truthful : ∀ n e, (look n).ended? = some e → e = ends
  pace : ∀ n, n * pollInterval ≤ (look n).elapsed

/-- A child that is over before the first look. -/
def Trial.ended (e : ChildEnd) (output : Bytes) : Trial where
  look n := ⟨some e, n * pollInterval⟩
  ends := e
  output := output
  truthful _ _ h := (Option.some.inj h).symm
  pace _ := Nat.le_refl _

namespace Host

namespace Checker

variable (checker : Checker) (child : Trial)

/-- The limit, if there is one and the child was running beyond it. -/
def expiry : Option Duration :=
  checker.limit.filter fun limit ↦ awaitEnd limit child.look limit.looks 0 = some none

def verdict : Verdict :=
  match checker.expiry child with
  | some limit => .timedOut limit
  | none => .ofEnd child.ends (Utf8.decodeLossy child.output)

def Passes : Prop := checker.expiry child = none ∧ child.ends = .exited 0

/-- The status of the child itself. One that a signal killed counts as 1, as one beyond the limit does. -/
def code : Int :=
  match checker.expiry child, child.ends with
  | none, .exited status => status.toNat
  | none, .killed _ => 1
  | some _, _ => 1

variable {checker child}

theorem running_of_expiry {limit : Duration} (h : checker.expiry child = some limit) :
    checker.limit = some limit ∧
      ∃ n, (child.look n).ended? = none ∧ limit.toNanos < (child.look n).elapsed := by
  obtain ⟨hlimit, hwait⟩ := Option.filter_eq_some_iff.mp h
  exact ⟨hlimit, awaitEnd_expired (of_decide_eq_true hwait)⟩

theorem wait_of_expiry (child : Trial) {limit : Duration} (hlimit : checker.limit = some limit) :
    awaitEnd limit child.look limit.looks 0 =
      some (if checker.expiry child = none then some child.ends else none) := by
  have hsettles : awaitEnd limit child.look limit.looks 0 ≠ none :=
    awaitEnd_settles child.pace (Nat.succ_pos _) (Nat.le_of_eq (Nat.zero_add _).symm)
  rw [expiry, hlimit]
  cases hwait : awaitEnd limit child.look limit.looks 0 with
  | none => exact absurd hwait hsettles
  | some found =>
    cases found with
    | none => simp [Option.filter, hwait]
    | some e =>
      obtain ⟨n, hend⟩ := awaitEnd_ended hwait
      simp [Option.filter, hwait, child.truthful n e hend]

theorem ofEnd_eq_passed_iff {e : ChildEnd} {output : String} :
    Verdict.ofEnd e output = .passed ↔ e = .exited 0 := by
  rw [Verdict.ofEnd]
  cases e with
  | exited status => simp [ChildEnd.isSuccess, ChildEnd.code?]
  | killed signal => simp [ChildEnd.isSuccess, ChildEnd.code?]

theorem verdict_eq_passed_iff : checker.verdict child = .passed ↔ checker.Passes child := by
  rw [verdict, Passes]
  cases checker.expiry child with
  | none => simp [ofEnd_eq_passed_iff]
  | some limit => simp

/-- A verdict other than `passed` and the code that goes with it, which is never 0. -/
theorem verdict_of_not_passes (h : ¬ checker.Passes child) : checker.code child ≠ 0 ∧
    ((∃ limit, checker.expiry child = some limit ∧ checker.code child = 1 ∧
        checker.verdict child = .timedOut limit) ∨
      checker.expiry child = none ∧ checker.verdict child =
        .failed (checker.code child) (Utf8.decodeLossy child.output)) := by
  rw [Passes] at h
  rw [verdict, code]
  cases hexpiry : checker.expiry child with
  | some limit => exact ⟨Int.one_ne_zero, .inl ⟨limit, rfl, rfl, rfl⟩⟩
  | none =>
    cases hend : child.ends with
    | killed signal => exact ⟨Int.one_ne_zero, .inr ⟨rfl, rfl⟩⟩
    | exited status =>
      have hstatus : status ≠ 0 := by
        rintro rfl
        exact h ⟨hexpiry, hend⟩
      refine ⟨?_, .inr ⟨rfl, ?_⟩⟩
      · simpa [← UInt8.toNat_inj] using hstatus
      · simp [Verdict.ofEnd, ChildEnd.isSuccess, ChildEnd.code?, ChildEnd.status, hstatus]

end Checker

namespace Machine

theorem lookAt_truthful (c : Child) (n : Nat) (e : ChildEnd) (h : (lookAt c n).ended? = some e) :
    e = c.finalEnd := by
  rw [lookAt] at h
  dsimp only at h
  split at h
  · rw [Child.finalEnd, h]
    rfl
  · cases h

def trial (c : Child) : Trial where
  look := lookAt c
  ends := c.finalEnd
  output := c.outputs.getD 0 []
  truthful := lookAt_truthful c
  pace n := Nat.le_add_right (n * pollInterval) 1000

/-- The child of a check, and the machine when the check is over. -/
def tryScript (m : Machine) (checker : Checker) (script : Path) : Except SetupError Trial × Machine :=
  let m := m.note (.checking checker.program script)
  match m.runChild (checkOrder checker script) 1 with
  | .error e => (.error (.spawn checker.program e), m)
  | .ok (child, m) =>
    (.ok (trial child), match checker.expiry (trial child) with
      | none => m
      | some limit => m.note (.checkExpired script limit))

variable {m : Machine}

theorem check_eq (checker : Checker) (script : Path) : m.check checker script =
    ((m.tryScript checker script).1.map checker.verdict, (m.tryScript checker script).2) := by
  have hsettled : ∀ c limit, checker.limit = some limit →
      awaitEnd limit (lookAt c) limit.looks 0 =
        some (if checker.expiry (trial c) = none then some c.finalEnd else none) :=
    fun c limit hlimit ↦ Checker.wait_of_expiry (trial c) hlimit
  -- From here on the number of looks is an unknown: reducing the matches would compute it.
  obtain ⟨looks, hlooks⟩ : ∃ looks : Duration → Nat, ∀ limit, limit.looks = looks limit :=
    ⟨_, fun _ ↦ rfl⟩
  rw [check, tryScript]
  simp only [hlooks] at hsettled ⊢
  generalize Machine.runChild _ _ _ = started
  cases started with
  | error e => rfl
  | ok started =>
    obtain ⟨c, m⟩ := started
    have hverdict : checker.verdict (trial c) = match checker.expiry (trial c) with
      | some limit => .timedOut limit
      | none => .ofEnd c.finalEnd (Utf8.decodeLossy (c.outputs.getD 0 [])) := rfl
    dsimp only [Except.map]
    rw [hverdict]
    cases hexpiry : checker.expiry (trial c) with
    | some limit =>
      obtain ⟨hlimit, -⟩ := Checker.running_of_expiry hexpiry
      rw [hlimit]
      dsimp only
      rw [hsettled c limit hlimit, hexpiry]
      rfl
    | none =>
      cases hlimit : checker.limit with
      | none => rfl
      | some limit =>
        dsimp only
        rw [hsettled c limit hlimit, hexpiry]
        rfl

end Machine

end Host

end DebugSession
