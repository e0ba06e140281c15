import DebugSession.Proofs.Path.Absolute

/-!
Joining by names. A relative path adds its names behind those of the directory, whether a slash ends the
directory or not.
-/

namespace DebugSession.Path

variable {p q : Path}

theorem names_append_slash (xs ys : Bytes) :
    names ⟨xs ++ slash :: ys⟩ = names ⟨xs⟩ ++ names ⟨ys⟩ := by
  rw [names_eq, pieces_append_slash, List.filter_append, ← names_eq, ← names_eq]

theorem names_of_endsInSlash {xs : Bytes} (h : p.bytes = xs ++ [slash]) : p.names = names ⟨xs⟩ := by
  obtain ⟨bs⟩ := p
  obtain rfl : bs = xs ++ [slash] := h
  rw [names_append_slash]
  exact List.append_nil _

theorem steps_slashes (n : Nat) (bs : Bytes) : steps ⟨List.replicate n slash ++ bs⟩ = steps ⟨bs⟩ := by
  induction n with
  | zero => rfl
  | succ n ih =>
    have hnames := names_append_slash [] (List.replicate n slash ++ bs)
    rw [← ih, steps, steps, List.replicate_succ, List.cons_append]
    exact congrArg (List.filter (· ≠ dot)) hnames

theorem join_absolute (h : q.isAbsolute) (p : Path) : p.join q = q := if_pos h

theorem names_join (h : q.isAbsolute = false) (p : Path) : (p.join q).names = p.names ++ q.names := by
  rw [join, if_neg (by simp [h])]
  split
  next hp =>
    obtain hnil | hend := hp
    · obtain ⟨bs⟩ := p
      obtain rfl : bs = [] := hnil
      rfl
    · obtain ⟨xs, hbytes, -⟩ := pieces_of_endsInSlash hend
      rw [names_of_endsInSlash hbytes, hbytes, List.append_assoc]
      exact names_append_slash xs q.bytes
  next => exact names_append_slash p.bytes q.bytes

theorem exists_bytes_join (h : q.isAbsolute = false) (p : Path) :
    ∃ between, (between = [] ∨ between = [slash]) ∧ (p.join q).bytes = p.bytes ++ (between ++ q.bytes) := by
  rw [join, if_neg (by simp [h])]
  split
  next => exact ⟨[], .inl rfl, rfl⟩
  next => exact ⟨[slash], .inr rfl, rfl⟩

theorem steps_join (h : q.isAbsolute = false) (p : Path) : (p.join q).steps = p.steps ++ q.steps := by
  rw [steps, names_join h, List.filter_append, ← steps, ← steps]

theorem isAbsolute_join (h : p.isAbsolute) (q : Path) : (p.join q).isAbsolute := by
  obtain ⟨b, bs, hp⟩ : ∃ b bs, p.bytes = b :: bs := by
    cases hp : p.bytes with
    | nil => simp [isAbsolute, hp] at h
    | cons b bs => exact ⟨b, bs, rfl⟩
  rw [join]
  split
  next hq => exact hq
  next => split <;> simpa [isAbsolute, hp] using h

theorem isAbsolute_ofText (s : String) : (ofText s).isAbsolute = Text.startsWith s "/" := by
  have hascii : ∀ c ∈ "/".toList, c.val.toNat < 0x80 := by
    intro c hc
    obtain rfl : c = '/' := by simpa using hc
    decide
  have hslash : Utf8.encode "/" = [slash] := by decide +kernel
  rw [Text.startsWith, ← Utf8.isPrefixOf_encodeChar hascii, ← Utf8.encode, ← Utf8.encode, hslash]
  cases hs : Utf8.encode s with
  | nil => simp [isAbsolute, ofText, hs]
  | cons b bs =>
    rw [List.isPrefixOf_cons_cons, List.isPrefixOf_nil_left, Bool.and_true,
      Bool.beq_eq_decide_eq]
    simp [isAbsolute, ofText, hs, eq_comm]

end DebugSession.Path
