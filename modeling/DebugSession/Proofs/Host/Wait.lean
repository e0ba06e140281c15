import DebugSession.Proofs.Host.Check

/-!
The wait for a child, look by look. It is over at the first look that finds the child ended or the clock
beyond the limit, and a clock that keeps the pace brings that look about.
-/

namespace DebugSession

variable {limit : Duration} {look : Nat → Poll} {looks round : Nat} {result : Option ChildEnd}

/-- A look behind which the wait goes on. -/
def Poll.Waits (limit : Duration) (p : Poll) : Prop :=
  p.ended? = none ∧ p.elapsed ≤ limit.toNanos

/-- A look that ends the wait. The clock counts only if the child is still running. -/
def Poll.Settles (limit : Duration) (p : Poll) (result : Option ChildEnd) : Prop :=
  p.ended? = result ∧ (result = none → limit.toNanos < p.elapsed)

theorem Poll.settles_some {p : Poll} {e : ChildEnd} :
    p.Settles limit (some e) ↔ p.ended? = some e := by
  simp [Settles]

theorem Poll.settles_none {p : Poll} :
    p.Settles limit none ↔ p.ended? = none ∧ limit.toNanos < p.elapsed := by
  simp [Settles]

theorem Poll.not_waits_of_settles {p : Poll} (h : p.Settles limit result) : ¬ p.Waits limit := by
  rintro ⟨hrunning, hearly⟩
  have hlate := h.2 (h.1.symm.trans hrunning)
  omega

theorem Poll.waits_or_settles (limit : Duration) (p : Poll) :
    p.Waits limit ∨ ∃ result, p.Settles limit result := by
  cases he : p.ended? with
  | some e => exact .inr ⟨some e, settles_some.mpr he⟩
  | none =>
    by_cases hlate : limit.toNanos < p.elapsed
    · exact .inr ⟨none, settles_none.mpr ⟨he, hlate⟩⟩
    · exact .inl ⟨he, Nat.not_lt.mp hlate⟩

theorem awaitEnd_of_settles (h : (look round).Settles limit result) (looks : Nat) :
    awaitEnd limit look (looks + 1) round = some result := by
  rw [awaitEnd]
  cases result with
  | some e => rw [Poll.settles_some.mp h]
  | none =>
    obtain ⟨hrunning, hlate⟩ := Poll.settles_none.mp h
    rw [hrunning]
    exact if_pos hlate

theorem awaitEnd_of_waits (h : (look round).Waits limit) (looks : Nat) :
    awaitEnd limit look (looks + 1) round = awaitEnd limit look looks (round + 1) := by
  rw [awaitEnd, h.1]
  exact if_neg (Nat.not_lt.mpr h.2)

/-- The looks that a wait makes: all but the last let it go on. -/
theorem awaitEnd_eq_some_iff : awaitEnd limit look looks round = some result ↔
    ∃ n < looks, (look (round + n)).Settles limit result ∧
      ∀ m < n, (look (round + m)).Waits limit := by
  induction looks generalizing round with
  | zero => simp [awaitEnd]
  | succ looks ih =>
    obtain hwaits | ⟨found, hsettles⟩ := (look round).waits_or_settles limit
    · rw [awaitEnd_of_waits hwaits, ih]
      constructor
      · rintro ⟨n, hn, hlast, hbefore⟩
        refine ⟨n + 1, by omega, by rwa [← Nat.add_assoc, Nat.add_right_comm], fun m hm ↦ ?_⟩
        cases m with
        | zero => exact hwaits
        | succ m =>
          rw [← Nat.add_assoc, Nat.add_right_comm]
          exact hbefore m (by omega)
      · rintro ⟨n, hn, hlast, hbefore⟩
        cases n with
        | zero => exact absurd hwaits (Poll.not_waits_of_settles hlast)
        | succ n =>
          refine ⟨n, by omega, by rwa [Nat.add_right_comm, Nat.add_assoc], fun m hm ↦ ?_⟩
          rw [Nat.add_right_comm, Nat.add_assoc]
          exact hbefore (m + 1) (by omega)
    · rw [awaitEnd_of_settles hsettles]
      constructor
      · intro h
        cases h
        exact ⟨0, by omega, hsettles, fun m hm ↦ absurd hm (Nat.not_lt_zero m)⟩
      · rintro ⟨n, hn, hlast, hbefore⟩
        cases n with
        | zero => exact congrArg some (hsettles.1.symm.trans hlast.1)
        | succ n => exact absurd (hbefore 0 (by omega)) (Poll.not_waits_of_settles hsettles)

/-- A wait that is over takes no further look, and one look less would not have ended it. -/
theorem awaitEnd_looks (h : awaitEnd limit look looks 0 = some result) :
    ∃ polls ≤ looks, ∀ looks, awaitEnd limit look looks 0 =
      if polls ≤ looks then some result else none := by
  obtain ⟨n, hn, hlast, hbefore⟩ := awaitEnd_eq_some_iff.mp h
  refine ⟨n + 1, hn, fun looks ↦ ?_⟩
  split
  next hle => exact awaitEnd_eq_some_iff.mpr ⟨n, hle, hlast, hbefore⟩
  next hlt =>
    rw [Option.eq_none_iff_forall_ne_some]
    intro found hfound
    obtain ⟨n', hn', hlast', hbefore'⟩ := awaitEnd_eq_some_iff.mp hfound
    exact Poll.not_waits_of_settles hlast' (hbefore n' (by omega))

theorem elapsed_of_pace (hpace : ∀ n, (look n).elapsed + pollInterval ≤ (look (n + 1)).elapsed) (n : Nat) :
    n * pollInterval ≤ (look n).elapsed := by
  induction n with
  | zero => omega
  | succ n ih =>
    have hnext := hpace n
    rw [Nat.succ_mul]
    omega

namespace Host

variable {checker : Checker} {child : Trial} {after : Duration}

theorem Checker.limit_of_timedOut (h : checker.verdict child = .timedOut after) :
    checker.limit = some after ∧ (child.look 0).ended? = none := by
  have hexpiry : checker.expiry child = some after := by
    rw [verdict] at h
    split at h
    next limit he => rw [he, ← Verdict.timedOut.inj h]
    next =>
      rw [Verdict.ofEnd] at h
      split at h <;> cases h
  obtain ⟨hlimit, -⟩ := running_of_expiry hexpiry
  refine ⟨hlimit, ?_⟩
  have hwait := wait_of_expiry child hlimit
  rw [hexpiry, if_neg (Option.some_ne_none after)] at hwait
  obtain ⟨n, -, hlast, hbefore⟩ := awaitEnd_eq_some_iff.mp hwait
  cases n with
  | zero => exact hlast.1
  | succ n => exact (hbefore 0 (Nat.succ_pos n)).1

/-- The wait for a child on a clock that gains at least the 20 ms of a pause from look to look. It ends
within a number of looks that the limit tells, with the end of the child at the first look that finds it
ended if the clock has not been beyond the limit before, and without it at the first look that finds it
running and the clock beyond. So a child that is over at the first look is never reported as late, and a
check that is reported as late names its own limit. -/
theorem wait_ends_exactly (limit : Duration) (look : Nat → Poll)
    (hpace : ∀ n, (look n).elapsed + 20000000 ≤ (look (n + 1)).elapsed) :
    (∃ polls ≤ limit.toNanos / 20000000 + 2, ∃ result, ∀ looks, awaitEnd limit look looks 0 =
      if polls ≤ looks then some result else none) ∧
    (∀ e, (∃ looks, awaitEnd limit look looks 0 = some (some e)) ↔
      ∃ n, (look n).ended? = some e ∧
        ∀ m < n, (look m).ended? = none ∧ (look m).elapsed ≤ limit.toNanos) ∧
    ((∃ looks, awaitEnd limit look looks 0 = some none) ↔
      ∃ n, (∀ m ≤ n, (look m).ended? = none) ∧ limit.toNanos < (look n).elapsed ∧
        ∀ m < n, (look m).elapsed ≤ limit.toNanos) ∧
    (∀ (checker : Checker) (child : Trial), (child.look 0).ended? ≠ none →
      ∀ after, checker.verdict child ≠ .timedOut after) ∧
    ∀ (m : Machine) (checker : Checker) (script : Path),
      (m.check checker script).1 = (m.tryScript checker script).1.map checker.verdict ∧
      ∀ after, (m.check checker script).1 = .ok (.timedOut after) → checker.limit = some after := by
  have hcheck (m : Machine) (checker : Checker) (script : Path) :
      (m.check checker script).1 = (m.tryScript checker script).1.map checker.verdict :=
    congrArg Prod.fst (Machine.check_eq checker script)
  refine ⟨?_, fun e ↦ ?_, ?_, ?_, fun m checker script ↦ ⟨hcheck m checker script, ?_⟩⟩
  · have hends : awaitEnd limit look limit.looks 0 ≠ none :=
      awaitEnd_settles (elapsed_of_pace hpace) (Nat.succ_pos _) (by omega)
    obtain ⟨result, hresult⟩ := Option.ne_none_iff_exists'.mp hends
    obtain ⟨polls, hpolls, hlooks⟩ := awaitEnd_looks hresult
    exact ⟨polls, hpolls, result, hlooks⟩
  · simp only [awaitEnd_eq_some_iff, Poll.settles_some, Nat.zero_add]
    constructor
    · rintro ⟨looks, n, -, hlast, hbefore⟩
      exact ⟨n, hlast, hbefore⟩
    · rintro ⟨n, hlast, hbefore⟩
      exact ⟨n + 1, n, Nat.lt_succ_self n, hlast, hbefore⟩
  · simp only [awaitEnd_eq_some_iff, Poll.settles_none, Nat.zero_add]
    constructor
    · rintro ⟨looks, n, -, ⟨hlast, hlate⟩, hbefore⟩
      refine ⟨n, fun m hm ↦ ?_, hlate, fun m hm ↦ (hbefore m hm).2⟩
      obtain rfl | hlt := Nat.eq_or_lt_of_le hm
      · exact hlast
      · exact (hbefore m hlt).1
    · rintro ⟨n, hrunning, hlate, hearly⟩
      exact ⟨n + 1, n, Nat.lt_succ_self n, ⟨hrunning n (Nat.le_refl n), hlate⟩,
        fun m hm ↦ ⟨hrunning m (Nat.le_of_lt hm), hearly m hm⟩⟩
  · intro checker child hover after hlate
    exact hover (Checker.limit_of_timedOut hlate).2
  · intro after hlate
    rw [hcheck] at hlate
    cases ht : (m.tryScript checker script).1 with
    | error e =>
      rw [ht] at hlate
      cases hlate
    | ok child =>
      rw [ht] at hlate
      exact (Checker.limit_of_timedOut (Except.ok.inj hlate)).1

/-- With no time at all to wait a child that ends behind the first look is still seen at the second, though
the clock is beyond the limit by then. -/
theorem wait_ends_exactly_at_zero :
    let look : Nat → Poll := fun n ↦ ⟨if n = 0 then none else some (.exited 3), n * 20000000⟩
    (∀ n, (look n).elapsed + 20000000 ≤ (look (n + 1)).elapsed) ∧
      ∃ looks, awaitEnd ⟨0, 0⟩ look looks 0 = some (some (.exited 3)) := by
  intro look
  have hpace (n : Nat) : (look n).elapsed + 20000000 ≤ (look (n + 1)).elapsed :=
    Nat.le_of_eq (Nat.succ_mul n 20000000).symm
  obtain ⟨-, hended, -⟩ := wait_ends_exactly ⟨0, 0⟩ look hpace
  refine ⟨hpace, (hended (.exited 3)).mpr ⟨1, rfl, fun m hm ↦ ?_⟩⟩
  obtain rfl : m = 0 := Nat.lt_one_iff.mp hm
  exact ⟨rfl, Nat.le_refl 0⟩

end Host

end DebugSession
