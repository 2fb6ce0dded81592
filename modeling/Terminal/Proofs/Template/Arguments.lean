import Terminal.Proofs.Template.Correspondence

/-!
# More arguments than a template needs

Arguments are read by place, and `%i` counts up as many of the first two as there are.  So a run
with more arguments corresponds to the run without them: what stands behind the arguments shows only
where the shorter run misses one, or where `%i` comes upon a text that the shorter run did not have.
`ignoresExtra` is what that means for expansions.
-/

namespace Terminal.Template

/-! ## Counting up -/

/-- Values that are all numbers, so that they can be counted up. -/
def AreIntegers (vs : List Value) : Prop := ∀ v ∈ vs, ∃ n, v = .integer n

section Increment

variable {count : Nat} {as bs : List Value}

/-- Without arguments there is nothing for `%i` to increment. -/
theorem increment?_nil (count : Nat) : increment? count [] = some [] := by
  cases count <;> rfl

/-- Counting up an append counts up its first part, and its second one as far as the first does not
reach. -/
theorem increment?_append (count : Nat) (as bs : List Value) :
    increment? count (as ++ bs) = (increment? count as).bind fun as' =>
      (increment? (count - as.length) bs).map (as' ++ ·) := by
  induction as generalizing count with
  | nil => simp [increment?_nil]
  | cons a as ih =>
    cases count with
    | zero => simp [increment?]
    | succ count =>
      cases a with
      | text bytes => rfl
      | integer v =>
        simp only [List.cons_append, increment?, ih, List.length_cons, Nat.add_sub_add_right]
        cases increment? count as with
        | none => rfl
        | some as' => cases increment? (count - as.length) bs <;> rfl

/-- `%i` changes no number of arguments. -/
theorem length_of_increment? (h : increment? count as = some bs) : bs.length = as.length := by
  induction as generalizing count bs with
  | nil =>
    rw [increment?_nil] at h
    cases h
    rfl
  | cons a as ih =>
    cases count with
    | zero =>
      cases h
      rfl
    | succ count =>
      cases a with
      | text bytes => cases h
      | integer v =>
        obtain ⟨cs, hcs, rfl⟩ := Option.map_eq_some_iff.mp h
        rw [List.length_cons, List.length_cons, ih hcs]

/-- Numbers can be counted up, and are numbers again. -/
theorem exists_increment?_of_areIntegers (h : AreIntegers (as.take count)) :
    ∃ bs, increment? count as = some bs ∧ AreIntegers (bs.take count) := by
  induction as generalizing count with
  | nil => exact ⟨[], increment?_nil count, by simp [AreIntegers]⟩
  | cons a as ih =>
    cases count with
    | zero => exact ⟨a :: as, rfl, h⟩
    | succ count =>
      rw [AreIntegers, List.take_succ_cons, List.forall_mem_cons] at h
      obtain ⟨⟨v, rfl⟩, has⟩ := h
      obtain ⟨bs, hbs, hints⟩ := ih has
      refine ⟨.integer (v + 1) :: bs, by rw [increment?, hbs]; rfl, ?_⟩
      rw [AreIntegers, List.take_succ_cons, List.forall_mem_cons]
      exact ⟨⟨v + 1, rfl⟩, hints⟩

end Increment

/-! ## Runs with more arguments -/

namespace Correspondence

/-- At least `n` arguments and the same ones with more behind them, among which those that `%i`
counts up are numbers.  The shorter run may miss an argument that is not among the first `n`. -/
def extending (n : Nat) : Correspondence where
  excused e := ∃ index : Fin 9, n ≤ index ∧ e = .missingArgument (Instruction.argumentDigit index)
  below := []
  arguments as as' := n ≤ as.length ∧
    ∃ extra, as' = as ++ extra ∧ AreIntegers (extra.take (2 - as.length))
  vars := Eq

/-- Every instruction takes two states that differ in further arguments only to two such states. -/
theorem keeps_extending (n : Nat) : (extending n).Keeps fun _ => True where
  underflow := .inl rfl
  argument {as as'} index has := by
    obtain ⟨hn, extra, rfl, -⟩ := has
    -- Past the given arguments only one run may find an argument, and the error is excused.
    by_cases hindex : index < as.length
    · exact .inl (List.getElem?_append_left hindex)
    · have hlength : as.length ≤ index := Nat.le_of_not_lt hindex
      exact .inr ⟨List.getElem?_eq_none hlength, index, Nat.le_trans hn hlength, rfl⟩
  increment {as as'} has := by
    obtain ⟨hn, extra, rfl, hextra⟩ := has
    obtain ⟨extra', hextra', hints⟩ := exists_increment?_of_areIntegers hextra
    rw [increment?_append, hextra']
    cases hcounted : increment? 2 as with
    | none => exact .none
    | some bs =>
      have hlength : bs.length = as.length := length_of_increment? hcounted
      exact .some ⟨hlength ▸ hn, extra', rfl, hlength ▸ hints⟩
  store {vs vs'} v n _ hvs := by
    obtain rfl : vs = vs' := hvs
    rfl
  fetch {vs vs'} v _ hvs := by
    obtain rfl : vs = vs' := hvs
    rfl

end Correspondence

namespace Context

/-- Arguments behind others make no difference, unless an argument is missed that is not among the
first `n` of at least `n`. -/
theorem expand_append_arguments (c : Context) (t : Bytes) {n : Nat} {arguments extra : List Value}
    (hn : n ≤ arguments.length) (hextra : AreIntegers (extra.take (2 - arguments.length)))
    (hmissing : ∀ index : Fin 9, n ≤ index →
      c.expand t arguments ≠ .error (.missingArgument (Instruction.argumentDigit index))) :
    c.expand t (arguments ++ extra) = c.expand t arguments := by
  have hadmits : Admits c.options (fun _ => True) .text t := admits_of_forall (fun _ => trivial) _ _
  have hrun : Alike _ _ (c.expand t arguments) (c.expand t (arguments ++ extra)) :=
    (Correspondence.keeps_extending n).expand rfl rfl hadmits ⟨hn, extra, rfl, hextra⟩ rfl
  refine hrun.eq_of_not_excused ?_ ?_
  · rintro ⟨out, d⟩ ⟨out', d'⟩ ⟨hout, vs, vs', hvs, hd, hd'⟩
    obtain rfl : vs = vs' := hvs
    exact Prod.ext hout (hd'.trans hd.symm)
  · rintro e he ⟨index, hindex, rfl⟩
    exact hmissing index hindex he

/-- More arguments than a template needs make no difference.  If no argument is missed, others can
stand behind those that are there, with numbers in the first two places; and those behind the ninth
are never used. -/
structure IgnoresExtra (c : Context) (t : Bytes) (arguments : List Value) : Prop where
  more : ∀ extra, AreIntegers (extra.take (2 - arguments.length)) →
    (∀ index : Fin 9,
      c.expand t arguments ≠ .error (.missingArgument (Instruction.argumentDigit index))) →
    c.expand t (arguments ++ extra) = c.expand t arguments
  pastNinth : c.expand t arguments = c.expand t (arguments.take 9)

/-- Further arguments, integers where `%i` can reach them, change no expansion in which no argument
is missing, and arguments past the ninth change none at all. -/
theorem ignoresExtra (c : Context) (t : Bytes) (arguments : List Value) :
    c.IgnoresExtra t arguments where
  more extra hextra hmissing :=
    c.expand_append_arguments t (Nat.zero_le _) hextra fun index _ => hmissing index
  pastNinth := by
    by_cases h : arguments.length ≤ 9
    · rw [List.take_of_length_le h]
    · have hlength : (arguments.take 9).length = 9 := by
        rw [List.length_take]
        omega
      -- nine arguments are there, so none of them is missed and none further back is counted up
      have hints : AreIntegers ((arguments.drop 9).take (2 - (arguments.take 9).length)) := by
        rw [hlength]
        exact List.forall_mem_nil _
      have happend := c.expand_append_arguments t (Nat.le_of_eq hlength.symm) hints
        fun index hindex => absurd hindex (Nat.not_le.mpr index.isLt)
      rwa [List.take_append_drop] at happend

/-- The template `%i%p1%d`, which counts up a second argument that it does not use. -/
def counted : Bytes := Bytes.ofAscii ['%', 'i', '%', 'p', '1', '%', 'd']

/-- A template that counts its one argument up and prints it, with two more arguments behind. -/
theorem ignoresExtra_counted :
    AreIntegers (([.integer 7, .text []] : List Value).take 1) ∧
      (∀ index : Fin 9, ({} : Context).expand counted [.integer 5] ≠
        .error (.missingArgument (Instruction.argumentDigit index))) ∧
      ({} : Context).expand counted [.integer 5, .integer 7, .text []] =
        ({} : Context).expand counted [.integer 5] := by
  have hints : AreIntegers (([.integer 7, .text []] : List Value).take 1) := by
    simp [AreIntegers]
  have hrun : ({} : Context).expand counted [.integer 5] = .ok ([0x36], {}) := rfl
  have hmissing (index : Fin 9) : ({} : Context).expand counted [.integer 5] ≠
      .error (.missingArgument (Instruction.argumentDigit index)) := by
    rw [hrun]
    exact nofun
  exact ⟨hints, hmissing,
    (ignoresExtra {} counted [.integer 5]).more [.integer 7, .text []] hints hmissing⟩

-- a text in the second place does make a difference
example : ({} : Context).expand (Bytes.ofAscii ['%', 'i', '%', 'p', '1', '%', 'd'])
    [.integer 5, .text []] = .error (.typeMismatch 'i') := rfl

end Context

end Terminal.Template
