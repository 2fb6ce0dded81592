import Mathlib.Data.List.Basic
import Mathlib.Data.List.Induction
import Mathlib.Tactic.SplitIfs
import Terminal.Proofs.Template.Composition
import Terminal.Proofs.Template.Skipping
import Terminal.Proofs.Text.Ascii

/-!
# The end of a part that is passed over

A text falls into `pieces`, from the left: every `%` makes a pair with the byte behind it, and all
other bytes stand alone.  `balance` counts the conditionals that the pairs open, less those that they
close.  A reader that passes over a part keeps that count as its depth, as long as none of the pairs
ends the part (`foldlM_pass_of_continues`).  A pair ends the part if it is one of `Part.ends` and
the balance in front of it is zero.  So the part ends with the first such pair, and what stands
between does not matter (`matchesMarks`).
-/

namespace Terminal.Template

/-! ## Pieces -/

/-- A piece of a text. -/
inductive Piece where
  /-- A byte that stands alone. -/
  | byte (b : UInt8)
  /-- A `%` and the byte behind it. -/
  | pair (b : UInt8)
deriving DecidableEq

/-- The pieces of a text.  A `%` at its end makes no pair. -/
def pieces : Bytes → List Piece
  | [] => []
  | [b] => if b = 0x25 then [] else [.byte b]
  | b :: c :: bs => if b = 0x25 then .pair c :: pieces bs else .byte b :: pieces (c :: bs)

/-- Whether a `%` at the end of the text waits for its partner. -/
def isOpen : Bytes → Bool
  | [] => false
  | [b] => b = 0x25
  | b :: c :: bs => if b = 0x25 then isOpen bs else isOpen (c :: bs)

/-- The number of `%?` less the number of `%;`. -/
def balance (ps : List Piece) : Int := ps.count (.pair 0x3f) - ps.count (.pair 0x3b)

namespace Part

/-- The bytes behind the `%` of the pairs that can end a part: `;` and `e`, or `;` alone. -/
def ends : Part → List UInt8
  | consequence => [0x3b, 0x65]
  | alternative => [0x3b]

/-- None of the pieces ends the part: whenever the balance is zero, a pair of another kind
follows. -/
def Continues (part : Part) (ps : List Piece) : Prop :=
  ∀ front b rest, ps = front ++ .pair b :: rest → balance front = 0 → b ∉ part.ends

/-- Behind the text, a `%` and the byte are the first pair that ends the part. -/
structure IsEndedBy (part : Part) (front : Bytes) (b : UInt8) : Prop where
  isOpen : isOpen front = false
  continues : part.Continues (pieces front)
  balance : balance (pieces front) = 0
  mem : b ∈ part.ends

end Part

/-! ## Pieces from the right -/

/-- One more byte is the partner of a `%`, or such a `%`, or stands alone. -/
theorem pieces_append_byte (w : Bytes) (b : UInt8) :
    pieces (w ++ [b]) =
      if isOpen w then pieces w ++ [.pair b]
      else if b = 0x25 then pieces w
      else pieces w ++ [.byte b] := by
  fun_induction pieces w with
  | case1 => rfl
  | case2 => simp [pieces, isOpen]
  | case3 c hc =>
    by_cases hb : b = 0x25
    · simp [pieces, isOpen, hc, hb]
    · simp [pieces, isOpen, hc, hb]
  | case4 c cs ih =>
    show pieces (0x25 :: c :: (cs ++ [b])) = _
    rw [pieces, if_pos rfl, ih]
    simp only [isOpen, if_true, List.cons_append]
    split_ifs <;> rfl
  | case5 c d ds hc ih =>
    show pieces (c :: d :: (ds ++ [b])) = _
    rw [pieces, if_neg hc, ← List.cons_append, ih]
    simp only [isOpen, if_neg hc, List.cons_append]
    split_ifs <;> rfl

/-- A last byte leaves a percent sign open when it is one that nothing precedes. -/
theorem isOpen_append_byte (w : Bytes) (b : UInt8) :
    isOpen (w ++ [b]) = (!isOpen w && decide (b = 0x25)) := by
  fun_induction isOpen w with
  | case1 => rfl
  | case2 c => by_cases hc : c = 0x25 <;> simp [isOpen, hc]
  | case3 c cs ih =>
    show isOpen (0x25 :: c :: (cs ++ [b])) = _
    rw [isOpen, if_pos rfl, ih]
  | case4 c d ds hc ih =>
    show isOpen (c :: d :: (ds ++ [b])) = _
    rw [isOpen, if_neg hc, ← List.cons_append, ih]

/-- The `%` that waits is the last byte, and it is no part of a piece. -/
theorem exists_of_isOpen {w : Bytes} (h : isOpen w = true) :
    ∃ front, w = front ++ [0x25] ∧ isOpen front = false ∧ pieces front = pieces w := by
  obtain rfl | ⟨front, b, rfl⟩ := List.eq_nil_or_concat' w
  · cases h
  · rw [isOpen_append_byte, Bool.and_eq_true, Bool.not_eq_true', decide_eq_true_eq] at h
    obtain ⟨hfront, rfl⟩ := h
    refine ⟨front, rfl, hfront, ?_⟩
    rw [pieces_append_byte, hfront]
    rfl

/-- A last piece counts on top of those before. -/
theorem balance_append_piece (ps : List Piece) (p : Piece) :
    balance (ps ++ [p]) = balance ps + balance [p] := by
  simp only [balance, List.count_append]
  omega

/-- A single byte does not change the depth. -/
theorem balance_byte (b : UInt8) : balance [.byte b] = 0 := by
  simp [balance]

/-- Nothing has ended before the first byte. -/
theorem Part.continues_nil (part : Part) : part.Continues [] := by
  intro front b rest h
  simp at h

/-- One more piece makes no difference unless it is a pair that ends the part. -/
theorem Part.continues_append_piece {part : Part} {ps : List Piece} {p : Piece} :
    part.Continues (ps ++ [p]) ↔
      part.Continues ps ∧ ∀ b, p = .pair b → Template.balance ps = 0 → b ∉ part.ends := by
  constructor
  · intro h
    refine ⟨?_, ?_⟩
    · rintro front b rest rfl
      exact h front b (rest ++ [p]) (by simp)
    · rintro b rfl
      exact h ps b [] rfl
  · rintro ⟨h, hlast⟩ front b rest hsplit
    obtain rfl | ⟨rest, last, rfl⟩ := List.eq_nil_or_concat' rest
    · obtain ⟨rfl, hpair⟩ := List.append_inj' hsplit rfl
      exact hlast b (List.cons.inj hpair).1
    · rw [← List.cons_append, ← List.append_assoc] at hsplit
      exact h front b rest (List.append_inj' hsplit rfl).1

/-- A single byte ends no part. -/
theorem Part.continues_append_byte (part : Part) {ps : List Piece} (b : UInt8) :
    part.Continues (ps ++ [.byte b]) ↔ part.Continues ps := by
  simp [continues_append_piece]

/-- A pair ends the part only at depth zero and only with one of its marks. -/
theorem Part.continues_append_pair (part : Part) {ps : List Piece} (b : UInt8) :
    part.Continues (ps ++ [.pair b]) ↔
      part.Continues ps ∧ (Template.balance ps = 0 → b ∉ part.ends) := by
  simp [continues_append_piece]

/-! ## The depth of a reader -/

/-- At depth zero there is no going on behind the pairs that end the part. -/
theorem mark_eq_none {part : Part} {b : UInt8} (h : b ∈ part.ends) :
    part.mark 0 (Char.ofUInt8 b) = none := by
  cases part <;> simp [Part.ends] at h
  · obtain rfl | rfl := h <;> rfl
  · subst h
    rfl

/-- Behind all other pairs the depth is the balance with the pair. -/
theorem exists_mark_eq_some {part : Part} {depth : Nat} {b : UInt8}
    (h : (depth : Int) = 0 → b ∉ part.ends) :
    ∃ next : Nat, part.mark depth (Char.ofUInt8 b) = some next ∧
      (next : Int) = depth + balance [.pair b] := by
  by_cases hclosing : b = 0x3b
  · subst hclosing
    cases depth with
    | zero => exact absurd (by cases part <;> decide) (h rfl)
    | succ depth =>
      refine ⟨depth, rfl, ?_⟩
      show (depth : Int) = (depth + 1 : Nat) + -1
      omega
  by_cases hopening : b = 0x3f
  · subst hopening
    refine ⟨depth + 1, by cases depth <;> rfl, ?_⟩
    show ((depth + 1 : Nat) : Int) = depth + 1
    omega
  have hbalance : balance [.pair b] = 0 := by simp [balance, hclosing, hopening]
  refine ⟨depth, ?_, by omega⟩
  -- An else mark ends the first part at depth zero, and is passed over everywhere else.
  by_cases hotherwise : b = 0x65
  · subst hotherwise
    cases depth with
    | zero =>
      cases part with
      | consequence => exact absurd (by decide) (h rfl)
      | alternative => rfl
    | succ depth => rfl
  · refine mark_eq_some part depth ?_
    have hne (c : UInt8) (hc : b ≠ c) : Char.ofUInt8 b ≠ Char.ofUInt8 c := by
      intro heq
      apply hc
      rw [← toUInt8_ofUInt8 b, heq, toUInt8_ofUInt8]
    simpa using ⟨hne 0x3b hclosing, hne 0x65 hotherwise, hne 0x3f hopening⟩

/-- As long as no pair ends the part, a reader that passes over it keeps the balance as its
depth. -/
theorem foldlM_pass_of_continues {part : Part} {w : Bytes} (h : part.Continues (pieces w)) :
    ∃ depth : Nat, (depth : Int) = balance (pieces w) ∧
      w.foldlM part.pass {} = some ⟨depth, isOpen w⟩ := by
  -- From the right, since what a byte means depends on the bytes before it.
  induction w using List.reverseRecOn with
  | nil => exact ⟨0, rfl, rfl⟩
  | append_singleton w b ih =>
    rw [pieces_append_byte] at h ⊢
    rw [isOpen_append_byte, List.foldlM_append]
    cases hopen : isOpen w with
    -- The byte completes a pair, which may be a mark.
    | true =>
      rw [hopen, if_pos rfl] at h
      obtain ⟨hw, hb⟩ := (part.continues_append_pair b).mp h
      obtain ⟨depth, hdepth, hfold⟩ := ih hw
      have hends : (depth : Int) = 0 → b ∉ part.ends := by rwa [hdepth]
      obtain ⟨next, hmark, hnext⟩ := exists_mark_eq_some hends
      refine ⟨next, ?_, ?_⟩
      · rw [if_pos rfl, balance_append_piece, hnext, hdepth]
      · rw [hfold, hopen]
        simp [Part.pass, hmark]
    | false =>
      rw [hopen] at h
      by_cases hb : b = 0x25
      · obtain ⟨depth, hdepth, hfold⟩ := ih (by simpa [hb] using h)
        refine ⟨depth, by simpa [hb] using hdepth, ?_⟩
        rw [hfold, hopen]
        simp [Part.pass]
      · have hw : part.Continues (pieces w ++ [.byte b]) := by simpa [hb] using h
        obtain ⟨depth, hdepth, hfold⟩ := ih ((part.continues_append_byte b).mp hw)
        refine ⟨depth, ?_, ?_⟩
        · rw [if_neg Bool.false_ne_true, if_neg hb, balance_append_piece, balance_byte, hdepth]
          omega
        · rw [hfold, hopen]
          simp [Part.pass]

/-! ## The first pair that ends a part -/

/-- A text either has no pair that ends the part, or a first one. -/
theorem continues_or_exists_isEndedBy (part : Part) (w : Bytes) :
    part.Continues (pieces w) ∨
      ∃ front b rest, w = front ++ 0x25 :: b :: rest ∧ part.IsEndedBy front b := by
  induction w using List.reverseRecOn with
  | nil => exact .inl part.continues_nil
  | append_singleton w b ih =>
    -- A part that has ended stays so; one that has not may end in the pair completed here.
    rcases ih with hw | ⟨front, c, rest, rfl, hend⟩
    · rw [pieces_append_byte]
      cases hopen : isOpen w with
      | false =>
        left
        rw [if_neg Bool.false_ne_true]
        by_cases hb : b = 0x25
        · rwa [if_pos hb]
        · rwa [if_neg hb, part.continues_append_byte]
      | true =>
        by_cases hb : balance (pieces w) = 0 ∧ b ∈ part.ends
        · obtain ⟨front, rfl, hfront, hpieces⟩ := exists_of_isOpen hopen
          rw [← hpieces] at hw hb
          exact .inr ⟨front, b, [], by simp, hfront, hw, hb.1, hb.2⟩
        · left
          rw [if_pos rfl, part.continues_append_pair]
          exact ⟨hw, fun hzero hmem => hb ⟨hzero, hmem⟩⟩
    · exact .inr ⟨front, c, rest ++ [b], by simp, hend⟩

/-- There the reader is at the beginning of the part again, as far as it can tell. -/
theorem Part.IsEndedBy.foldlM_pass {part : Part} {front : Bytes} {b : UInt8}
    (h : part.IsEndedBy front b) : front.foldlM part.pass {} = some {} := by
  obtain ⟨depth, hdepth, hfold⟩ := foldlM_pass_of_continues h.continues
  rw [h.balance, Int.natCast_eq_zero] at hdepth
  rw [hfold, hdepth, h.isOpen]

/-- A reader that passes over a part does so up to the pair that ends it, and no further. -/
structure Part.MatchesMarks (part : Part) (o : Options) (w : Bytes) : Prop where
  /-- Behind a beginning in which no pair ends the part, nothing has changed but the mode, and the
  depth is the balance. -/
  inside : ∀ front, front <+: w → part.Continues (pieces front) →
    ∃ depth : Nat, (depth : Int) = Template.balance (pieces front) ∧ ∀ s : State,
      Machine.feed o ⟨.skip part 0 false, s⟩ front =
        .ok ([], ⟨.skip part depth (Template.isOpen front), s⟩)
  /-- The first pair that ends the part leads back to plain text, and nothing before it does.  The
  run goes on behind it. -/
  ended : ∀ front b rest, w = front ++ 0x25 :: b :: rest → part.IsEndedBy front b →
    part.EndsAfter o (front ++ [0x25, b]) ∧ ∀ s : State,
      Machine.complete o ⟨.skip part 0 false, s⟩ w = Machine.complete o ⟨.text, s⟩ rest
  /-- Without such a pair, the template ends well and nothing is carried out. -/
  unended : part.Continues (pieces w) → ∀ s : State,
    Machine.complete o ⟨.skip part 0 false, s⟩ w = .ok ([], s)
  /-- There is no third case. -/
  decided : part.Continues (pieces w) ∨
    ∃ front b rest, w = front ++ 0x25 :: b :: rest ∧ part.IsEndedBy front b

/-- This holds of every text, whatever it would do in another place. -/
theorem matchesMarks (part : Part) (o : Options) (w : Bytes) : part.MatchesMarks o w where
  inside := by
    intro front _ h
    obtain ⟨depth, hdepth, hfold⟩ := foldlM_pass_of_continues h
    exact ⟨depth, hdepth, fun s => feed_skip o part s hfold⟩
  ended := by
    rintro front b rest rfl h
    -- Up to the `%` of the closing mark the part goes on; its second byte ends it.
    have hpass : (front ++ [0x25]).foldlM part.pass {} = some { behind := true } := by
      rw [List.foldlM_append, h.foldlM_pass]
      rfl
    have hlast : part.pass { behind := true } b = none := by
      rw [Part.pass, if_pos rfl, mark_eq_none h.mem]
      rfl
    have hends : part.EndsAfter o (front ++ [0x25, b]) := by
      simpa using endsAfter_append_byte part o hpass hlast
    refine ⟨hends, fun s => ?_⟩
    have hsplit : front ++ 0x25 :: b :: rest = (front ++ [0x25, b]) ++ rest := by simp
    rw [hsplit, complete_append_of_silent (hends s).1]
  unended := by
    intro h s
    obtain ⟨depth, -, hfold⟩ := foldlM_pass_of_continues h
    rw [Machine.complete, feed_skip o part s hfold]
    rfl
  decided := continues_or_exists_isEndedBy part w

/-- In `%?%'%'%e%;%ex` neither the quoted `%` nor the mark within the inner conditional ends the
consequence. -/
example : Machine.feed {} ⟨.skip .consequence 0 false, {}⟩ (Bytes.ofAscii
      ['%', '?', '%', '\x27', '%', '\x27', '%', 'e', '%', ';', '%', 'e', 'x']) =
    .ok ([0x78], {}) := rfl

end Terminal.Template
