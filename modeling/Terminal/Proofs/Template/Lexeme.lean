import Terminal.Proofs.Template.Skipping
import Terminal.Proofs.Text.Ascii
import Terminal.Template.Tree

/-!
# Passing over the text of a tree

The text of a tree is a list of lexemes: directives, and the marks of its conditionals.  A reader
that passes over it pairs every `%` with the byte behind it, whatever the directive, and
`Lexeme.pass` is what that does to a whole lexeme (`foldlM_pass_lexeme`).  Only the `%` that ends a
format can be left without a partner.  It then takes the first byte of the next lexeme: a mark there
goes unseen, and a byte of plain text can pass for a mark.
-/

namespace Terminal.Template

/-! ## Lexemes -/

/-- A mark of a conditional. -/
inductive Mark where
  | opening
  | test
  | otherwise
  | closing
deriving DecidableEq

/-- The character behind the `%` of a mark. -/
def Mark.symbol : Mark → Char
  | opening => '?'
  | test => 't'
  | otherwise => 'e'
  | closing => ';'

/-- A piece of the text of a tree. -/
inductive Lexeme where
  | directive (d : Directive)
  | mark (k : Mark)
deriving DecidableEq

namespace Lexeme

/-- The text of a lexeme. -/
def text (fe : FormatEnd) : Lexeme → Bytes
  | directive d => d.text fe
  | mark k => Bytes.ofAscii ['%', k.symbol]

/-- Whether the lexeme is one of the language. -/
def isValid (fe : FormatEnd) : Lexeme → Bool
  | directive d => d.isValid fe
  | mark _ => true

end Lexeme

mutual

/-- The lexemes of a tree from left to right. -/
def Tree.lexemes : Tree → List Lexeme
  | .nil => []
  | .directive d rest => .directive d :: rest.lexemes
  | .conditional b rest => .mark .opening :: b.lexemes ++ .mark .closing :: rest.lexemes

/-- The lexemes between the first and the last mark of a conditional. -/
def Branches.lexemes : Branches → List Lexeme
  | .single condition body => condition.lexemes ++ .mark .test :: body.lexemes
  | .orElse condition body otherwise =>
    condition.lexemes ++ .mark .test :: body.lexemes ++ .mark .otherwise :: otherwise.lexemes
  | .orIf condition body more =>
    condition.lexemes ++ .mark .test :: body.lexemes ++ .mark .otherwise :: more.lexemes

end

mutual

/-- The lexemes of a tree make up its text. -/
theorem Tree.flatMap_text (fe : FormatEnd) (t : Tree) :
    t.lexemes.flatMap (Lexeme.text fe) = t.text fe := by
  cases t with
  | nil => rfl
  | directive d rest =>
    simp [Tree.lexemes, Tree.text, Lexeme.text, rest.flatMap_text fe]
  | conditional b rest =>
    simp [Tree.lexemes, Tree.text, Lexeme.text, b.flatMap_text fe, rest.flatMap_text fe,
      Mark.symbol]

/-- The text of branches is the text of their lexemes. -/
theorem Branches.flatMap_text (fe : FormatEnd) (b : Branches) :
    b.lexemes.flatMap (Lexeme.text fe) = b.text fe := by
  cases b with
  | single condition body =>
    simp [Branches.lexemes, Branches.text, Lexeme.text, condition.flatMap_text fe,
      body.flatMap_text fe, Mark.symbol]
  | orElse condition body otherwise =>
    simp [Branches.lexemes, Branches.text, Lexeme.text, condition.flatMap_text fe,
      body.flatMap_text fe, otherwise.flatMap_text fe, Mark.symbol]
  | orIf condition body more =>
    simp [Branches.lexemes, Branches.text, Lexeme.text, condition.flatMap_text fe,
      body.flatMap_text fe, more.flatMap_text fe, Mark.symbol]

end

mutual

/-- A tree is of the language if its lexemes are. -/
theorem Tree.all_isValid (fe : FormatEnd) (t : Tree) :
    t.lexemes.all (Lexeme.isValid fe) = t.isValid fe := by
  cases t with
  | nil => rfl
  | directive d rest =>
    simp [Tree.lexemes, Tree.isValid, Lexeme.isValid, rest.all_isValid fe]
  | conditional b rest =>
    simp [Tree.lexemes, Tree.isValid, Lexeme.isValid, b.all_isValid fe, rest.all_isValid fe]

/-- Branches are valid when all of their lexemes are. -/
theorem Branches.all_isValid (fe : FormatEnd) (b : Branches) :
    b.lexemes.all (Lexeme.isValid fe) = b.isValid fe := by
  cases b with
  | single condition body =>
    simp [Branches.lexemes, Branches.isValid, Lexeme.isValid, condition.all_isValid fe,
      body.all_isValid fe]
  | orElse condition body otherwise =>
    simp [Branches.lexemes, Branches.isValid, Lexeme.isValid, condition.all_isValid fe,
      body.all_isValid fe, otherwise.all_isValid fe, Bool.and_assoc]
  | orIf condition body more =>
    simp [Branches.lexemes, Branches.isValid, Lexeme.isValid, condition.all_isValid fe,
      body.all_isValid fe, more.all_isValid fe, Bool.and_assoc]

end

/-! ## Passing over a lexeme -/

/-- Whether the text of a directive ends with a `%` that belongs to no byte behind it. -/
def Directive.endsOpen (fe : FormatEnd) : Directive → Bool
  | format (.colon _) _ => fe = .percent
  | _ => false

/-- Passes over a lexeme, unless something in it ends the part.  Behind an open `%` a mark goes
unseen, and a byte of plain text is taken for one. -/
def Lexeme.pass (fe : FormatEnd) (part : Part) (m : Skipping) : Lexeme → Option Skipping
  | directive (.byte b) => part.pass m b
  | directive d =>
    some { m with behind := d.endsOpen fe || (m.behind && d = .operator .percent) }
  | mark k =>
    if m.behind then some { m with behind := false }
    else (part.mark m.depth k.symbol).map fun depth => { depth }

/-- A mark is passed over as one lexeme. -/
theorem foldlM_pass_mark (fe : FormatEnd) (part : Part) (m : Skipping) (k : Mark) :
    ((Lexeme.mark k).text fe).foldlM part.pass m = (Lexeme.mark k).pass fe part m := by
  obtain ⟨depth, behind⟩ := m
  cases behind with
  | false =>
    -- the two bytes of the mark are taken together
    have hsymbol : Char.ofUInt8 k.symbol.toUInt8 = k.symbol := by cases k <;> rfl
    change [k.symbol.toUInt8].foldlM part.pass ⟨depth, true⟩ = _
    simp [Part.pass, hsymbol, Lexeme.pass]
  | true =>
    -- its `%` goes to the open one before it, and its character is plain text
    have hplain : k.symbol.toUInt8 ≠ 0x25 := by cases k <;> decide
    have hpass : part.pass ⟨depth, true⟩ 0x25 = some { depth } := by
      simp [Part.pass, mark_eq_some part depth (c := Char.ofUInt8 0x25) (by decide)]
    change [0x25, k.symbol.toUInt8].foldlM part.pass ⟨depth, true⟩ = _
    rw [List.foldlM_cons, hpass]
    exact foldlM_pass_plain part depth (by simpa using hplain.symm)

/-- No variable is called `%`. -/
theorem Variable.percent_ne_symbol (v : Variable) : (0x25 : UInt8) ≠ v.symbol.toUInt8 := by
  cases v with
  | static i => revert i; decide
  | dynamic i => revert i; decide

/-- A decimal numeral holds no percent sign. -/
theorem percent_notMem_digits (n : Nat) : 0x25 ∉ Numeral.digits 10 n := by
  intro hmem
  obtain ⟨c, hc, hbyte⟩ := List.mem_map.mp hmem
  have hdigit : c.isDigit = true := Nat.isDigit_of_mem_toDigits (by decide) (by decide) hc
  have hle : c.toNat ≤ 57 := by
    simp only [Char.isDigit, Bool.and_eq_true, decide_eq_true_eq] at hdigit
    exact UInt32.le_iff_toNat_le.mp hdigit.2
  have hne : c ≠ '%' := by
    rintro rfl
    simp at hdigit
  exact toUInt8_ne_percent (by omega) hne hbyte

/-- A format specification holds no percent sign. -/
theorem percent_notMem_spec {spec : List Char} (h : spec.all Format.isSpec = true) :
    0x25 ∉ Bytes.ofAscii spec := by
  intro hmem
  obtain ⟨c, hc, hbyte⟩ := List.mem_map.mp hmem
  obtain ⟨hlt, hne⟩ := Format.toNat_lt_of_isSpec (List.all_eq_true.mp h c hc)
  exact toUInt8_ne_percent (by omega) hne hbyte

/-- No conversion letter is a percent sign. -/
theorem percent_ne_conversion (k : Conversion) : (0x25 : UInt8) ≠ k.symbol.toUInt8 := by
  cases k <;> decide

/-- Two `%` are taken together, or the first goes to the one before it and the second stays open. -/
theorem foldlM_pass_percents (part : Part) (m : Skipping) :
    [0x25, 0x25].foldlM part.pass m = some m := by
  obtain ⟨depth, behind⟩ := m
  cases behind <;> simp [Part.pass, mark_eq_some part depth (c := Char.ofUInt8 0x25) (by decide)]

/-- A quoted byte is never taken for a mark: if it is a `%`, its quote goes with it. -/
theorem foldlM_pass_character (part : Part) (m : Skipping) (b : UInt8) :
    [0x25, 0x27, b, 0x27].foldlM part.pass m = some { depth := m.depth } := by
  have hquote : [b, 0x27].foldlM part.pass { depth := m.depth } = some { depth := m.depth } := by
    by_cases hb : b = 0x25
    · simp [hb, Part.pass, mark_eq_some part m.depth (c := Char.ofUInt8 0x27) (by decide)]
    · exact foldlM_pass_plain part m.depth (by simp [Ne.symm hb])
  change ([0x25, 0x27] ++ [b, 0x27]).foldlM part.pass m = _
  rw [List.foldlM_append, foldlM_pass_directive part m (by decide) (by decide)]
  exact hquote

/-- A format is passed over, and leaves a percent sign behind exactly when it ends in one. -/
theorem foldlM_pass_format (fe : FormatEnd) (part : Part) (m : Skipping) {spelling : Spelling}
    (h : spelling.isValid fe = true) (k : Conversion) :
    (Bytes.ofAscii ('%' :: spelling.text fe k)).foldlM part.pass m =
      some { m with behind := (Directive.format spelling k).endsOpen fe } := by
  have hk : Char.ofUInt8 k.symbol.toUInt8 ∉ [';', 'e', '?'] := by cases k <;> decide
  cases spelling with
  | letter =>
    exact foldlM_pass_directive part m hk (by simpa using percent_ne_conversion k)
  | colon spec =>
    have hplain : 0x25 ∉ 0x3a :: (Bytes.ofAscii spec ++ [k.symbol.toUInt8]) := by
      simp [percent_notMem_spec h, percent_ne_conversion k]
    have hbody : (Bytes.ofAscii ('%' :: ':' :: spec) ++ [k.symbol.toUInt8]).foldlM part.pass m =
        some { depth := m.depth } := foldlM_pass_directive part m (by decide) hplain
    cases fe with
    | conversion =>
      rw [Spelling.ofAscii_text_colon_conversion, hbody]
      rfl
    | percent =>
      -- the `%` at the end begins a new pair
      rw [Spelling.ofAscii_text_colon_percent, List.foldlM_append, hbody]
      rfl
  | bare spec =>
    obtain ⟨⟨-, hstart⟩, hspec⟩ : (fe = .conversion ∧
        spec.head?.any Format.isBareStart = true) ∧ spec.all Format.isSpec = true := by
      simpa only [Spelling.isValid, Bool.and_eq_true, decide_eq_true_eq] using h
    cases spec with
    | nil => simp at hstart
    | cons c cs =>
      have hbytes := percent_notMem_spec hspec
      rw [Spelling.ofAscii_text_bare]
      refine foldlM_pass_directive part m (Format.notMem_marks_of_isBareStart hstart) ?_
      simpa [Bytes.ofAscii, percent_ne_conversion k] using hbytes

/-- Byte by byte, a reader passes over a lexeme as `Lexeme.pass` says. -/
theorem foldlM_pass_lexeme (fe : FormatEnd) (part : Part) (m : Skipping) {l : Lexeme}
    (h : l.isValid fe = true) : (l.text fe).foldlM part.pass m = l.pass fe part m := by
  cases l with
  | mark k => exact foldlM_pass_mark fe part m k
  | directive d =>
    -- A directive without a second `%` is passed over; `%%`, characters and formats may hold one.
    cases d with
    | byte b => simp [Lexeme.text, Directive.text, Lexeme.pass]
    | operator op =>
      by_cases hop : op = .percent
      · subst hop
        refine (foldlM_pass_percents part m).trans ?_
        simp [Lexeme.pass, Directive.endsOpen]
      · have hplain : Char.ofUInt8 op.symbol.toUInt8 ∉ [';', 'e', '?'] ∧
            0x25 ∉ [op.symbol.toUInt8] := by
          cases op with
          | percent => exact absurd rfl hop
          | arithmetic op => cases op <;> decide
          | comparison op => cases op <;> decide
          | _ => decide
        refine (foldlM_pass_directive part m hplain.1 hplain.2).trans ?_
        simp [Lexeme.pass, Directive.endsOpen, hop]
    | argument index =>
      have hdigit : ∀ i : Fin 9, 0x25 ∉ [0x70, (Instruction.argumentDigit i).toUInt8] := by decide
      refine (foldlM_pass_directive part m (by decide) (hdigit index)).trans ?_
      simp [Lexeme.pass, Directive.endsOpen]
    | store v =>
      have hname : 0x25 ∉ [0x50, v.symbol.toUInt8] := by simpa using v.percent_ne_symbol
      refine (foldlM_pass_directive part m (by decide) hname).trans ?_
      simp [Lexeme.pass, Directive.endsOpen]
    | fetch v =>
      have hname : 0x25 ∉ [0x67, v.symbol.toUInt8] := by simpa using v.percent_ne_symbol
      refine (foldlM_pass_directive part m (by decide) hname).trans ?_
      simp [Lexeme.pass, Directive.endsOpen]
    | character b =>
      refine (foldlM_pass_character part m b).trans ?_
      simp [Lexeme.pass, Directive.endsOpen]
    | number n =>
      have hdigits : 0x25 ∉ 0x7b :: (Numeral.digits 10 n ++ [0x7d]) := by
        simpa using percent_notMem_digits n
      refine (foldlM_pass_directive part m (by decide) hdigits).trans ?_
      simp [Lexeme.pass, Directive.endsOpen]
    | format spelling k =>
      refine (foldlM_pass_format fe part m h k).trans ?_
      simp [Lexeme.pass]

/-- Passing over the text of lexemes byte by byte is passing over the lexemes. -/
theorem foldlM_pass_lexemes (fe : FormatEnd) (part : Part) (m : Skipping) {ls : List Lexeme}
    (h : ls.all (Lexeme.isValid fe) = true) :
    (ls.flatMap (Lexeme.text fe)).foldlM part.pass m = ls.foldlM (Lexeme.pass fe part) m := by
  induction ls generalizing m with
  | nil => rfl
  | cons l ls ih =>
    obtain ⟨hl, hls⟩ : l.isValid fe = true ∧ ls.all (Lexeme.isValid fe) = true := by
      simpa using h
    rw [List.flatMap_cons, List.foldlM_append, foldlM_pass_lexeme fe part m hl, List.foldlM_cons]
    cases l.pass fe part m with
    | none => rfl
    | some next => exact ih next hls

/-- So it passes over the text of a tree. -/
theorem Tree.foldlM_pass_text (fe : FormatEnd) (part : Part) (m : Skipping) {t : Tree}
    (h : t.isValid fe = true) :
    (t.text fe).foldlM part.pass m = t.lexemes.foldlM (Lexeme.pass fe part) m := by
  rw [← t.flatMap_text fe]
  exact foldlM_pass_lexemes fe part m ((t.all_isValid fe).trans h)

/-! ## Trees without open ends -/

/-- Whether the lexeme is of the language and a reader that passes over it stands as before. -/
def Lexeme.isClosed (fe : FormatEnd) : Lexeme → Bool
  | directive d => d.isValid fe && !d.endsOpen fe
  | mark _ => true

/-- Closed lexemes are valid. -/
theorem Lexeme.isValid_of_isClosed {fe : FormatEnd} {ls : List Lexeme}
    (h : ls.all (isClosed fe) = true) : ls.all (isValid fe) = true := by
  refine List.all_eq_true.mpr fun l hl => ?_
  have hclosed := List.all_eq_true.mp h l hl
  cases l with
  | mark k => rfl
  | directive d => exact (Bool.and_eq_true_iff.mp hclosed).1

/-- Where letters end formats, no directive has an open end. -/
theorem Tree.all_isClosed_conversion {t : Tree} (h : t.isValid .conversion = true) :
    t.lexemes.all (Lexeme.isClosed .conversion) = true := by
  rw [← t.all_isValid] at h
  refine List.all_eq_true.mpr fun l hl => ?_
  have hvalid := List.all_eq_true.mp h l hl
  cases l with
  | mark k => rfl
  | directive d =>
    have hends : d.endsOpen .conversion = false := by
      unfold Directive.endsOpen
      split <;> rfl
    simpa [Lexeme.isClosed, hends] using (show d.isValid .conversion = true from hvalid)

/-- A closed directive is passed over without a trace. -/
theorem Lexeme.pass_directive {fe : FormatEnd} {d : Directive}
    (h : (directive d).isClosed fe = true) (part : Part) (depth : Nat) :
    (directive d).pass fe part { depth } = some { depth } := by
  obtain ⟨hvalid, hends⟩ := Bool.and_eq_true_iff.mp h
  rw [Bool.not_eq_true'] at hends
  cases d with
  | byte b =>
    have hb : b ≠ 0x25 := by simpa [Directive.isValid] using hvalid
    simp [pass, Part.pass, hb]
  | _ => simp [pass, hends]

mutual

/-- A reader that passes over a tree without open ends stands as before. -/
theorem Tree.pass_lexemes {fe : FormatEnd} {t : Tree}
    (h : t.lexemes.all (Lexeme.isClosed fe) = true) (part : Part) (depth : Nat) :
    t.lexemes.foldlM (Lexeme.pass fe part) { depth } = some { depth } := by
  cases t with
  | nil => rfl
  | directive d rest =>
    obtain ⟨hd, hrest⟩ := Bool.and_eq_true_iff.mp h
    rw [Tree.lexemes, List.foldlM_cons, Lexeme.pass_directive hd]
    exact Tree.pass_lexemes hrest part depth
  | conditional b rest =>
    simp only [Tree.lexemes, List.all_append, List.all_cons, Bool.and_eq_true] at h
    obtain ⟨⟨-, hb⟩, -, hrest⟩ := h
    rw [Tree.lexemes, List.foldlM_append, List.foldlM_cons]
    change (do
      let m ← b.lexemes.foldlM (Lexeme.pass fe part) { depth := depth + 1 }
      List.foldlM (Lexeme.pass fe part) m (.mark .closing :: rest.lexemes)) = _
    rw [Branches.pass_lexemes hb part (.inr depth.succ_pos)]
    exact Tree.pass_lexemes hrest part depth

/-- So it does over the text of a conditional, unless its `%e` ends the part. -/
theorem Branches.pass_lexemes {fe : FormatEnd} {b : Branches}
    (h : b.lexemes.all (Lexeme.isClosed fe) = true) (part : Part) {depth : Nat}
    (hinner : part = .alternative ∨ 0 < depth) :
    b.lexemes.foldlM (Lexeme.pass fe part) { depth } = some { depth } := by
  -- at depth zero an `%e` would end a consequence; an alternative it does not end
  have helse : (Lexeme.mark .otherwise).pass fe part { depth } = some { depth } := by
    cases depth with
    | zero =>
      obtain rfl : part = .alternative := by simpa using hinner
      rfl
    | succ depth => rfl
  have htest : (Lexeme.mark .test).pass fe part { depth } = some { depth } := by
    cases depth <;> rfl
  cases b with
  | single condition body =>
    simp only [Branches.lexemes, List.all_append, List.all_cons, Bool.and_eq_true] at h
    obtain ⟨hcondition, -, hbody⟩ := h
    simp [Branches.lexemes, Tree.pass_lexemes hcondition, htest, Tree.pass_lexemes hbody]
  | orElse condition body otherwise =>
    simp only [Branches.lexemes, List.all_append, List.all_cons, Bool.and_eq_true] at h
    obtain ⟨⟨hcondition, -, hbody⟩, -, hotherwise⟩ := h
    simp [Branches.lexemes, Tree.pass_lexemes hcondition, htest, Tree.pass_lexemes hbody, helse,
      Tree.pass_lexemes hotherwise]
  | orIf condition body more =>
    simp only [Branches.lexemes, List.all_append, List.all_cons, Bool.and_eq_true] at h
    obtain ⟨⟨hcondition, -, hbody⟩, -, hmore⟩ := h
    simp [Branches.lexemes, Tree.pass_lexemes hcondition, htest, Tree.pass_lexemes hbody, helse,
      Branches.pass_lexemes hmore part hinner]

end

end Terminal.Template
