import Terminal.Proofs.Template.Lexeme
import Terminal.Proofs.Template.Reading

/-!
# Structured templates

The machine never sees the tree of a template, and yet it has the effect of the tree.  The proof
goes by induction on the tree: `implements_choose` is the step behind a `%t`, where the machine
either runs the consequence and passes over what follows its `%e`, or passes over the consequence.
That nothing is lost on the way is `Tree.pass_lexemes`, so the tree must have no open ends; where
letters end formats there are none, and `expand_text` needs no more than a tree of the language.
-/

namespace Terminal.Template

variable {o : Options}

/-! ## Effects -/

@[simp] theorem andThen_idle (e : Effect) : andThen e idle = e := by
  funext s
  cases h : e s <;> simp [andThen, idle, h, bind, Except.bind, pure, Except.pure]

@[simp] theorem idle_andThen (e : Effect) : andThen idle e = e := by
  funext s
  cases h : e s <;> simp [andThen, idle, h, bind, Except.bind, pure, Except.pure]

/-! ## Marks -/

/-- The marks around a conditional have no effect when they are read. -/
theorem implements_opening (o : Options) : Implements o (Bytes.ofAscii ['%', '?']) idle :=
  feed_pair rfl rfl

/-- The end of a conditional does nothing by itself. -/
theorem implements_closing (o : Options) : Implements o (Bytes.ofAscii ['%', ';']) idle :=
  feed_pair rfl rfl

/-- The mark behind the part that is passed over leads back to plain text. -/
theorem feed_skip_closing (o : Options) (part : Part) (s : State) :
    Machine.feed o ⟨.skip part 0 false, s⟩ (Bytes.ofAscii ['%', ';']) = .ok ([], ⟨.text, s⟩) :=
  feed_pair rfl rfl s

/-- An else mark ends a skipped first part. -/
theorem feed_skip_otherwise (o : Options) (s : State) :
    Machine.feed o ⟨.skip .consequence 0 false, s⟩ (Bytes.ofAscii ['%', 'e']) =
      .ok ([], ⟨.text, s⟩) :=
  feed_pair rfl rfl s

/-- Behind a consequence that was run, everything up to the end of the conditional is passed
over. -/
theorem implements_otherwise {rest : Bytes}
    (h : rest.foldlM (Part.pass .alternative) {} = some {}) :
    Implements o (Bytes.ofAscii ['%', 'e'] ++ rest ++ Bytes.ofAscii ['%', ';']) idle := by
  intro s
  have helse : Machine.feed o ⟨.text, s⟩ (Bytes.ofAscii ['%', 'e']) =
      .ok ([], ⟨.skip .alternative 0 false, s⟩) := feed_pair rfl rfl s
  rw [List.append_assoc, feed_append_of_silent helse,
    feed_append_of_silent (feed_skip o .alternative s h)]
  exact feed_skip_closing o .alternative s

/-! ## Conditionals -/

/-- A test takes the number that the condition has left.  The text behind it is either run as it
stands or entered by a reader that passes over the consequence. -/
theorem implements_choose {t : Bytes} {holds fails : Effect} (hholds : Implements o t holds)
    (hfails : ∀ s, Machine.feed o ⟨.skip .consequence 0 false, s⟩ t =
      (fails s).map fun r => (r.1, ⟨.text, r.2⟩)) :
    Implements o (Bytes.ofAscii ['%', 't'] ++ t) (choose holds fails) := by
  intro s
  have htest : Machine.feed o ⟨.text, s⟩ (Bytes.ofAscii ['%', 't']) =
      (s.popInteger 't').map fun r =>
        ([], ⟨if r.1 = 0 then .skip .consequence 0 false else .text, r.2⟩) := by
    change Machine.feed o ⟨.text, s⟩ [0x25, 0x74] = _
    rw [feed_idle rfl]
    exact feed_test rfl s
  rw [Machine.feed_append, htest, choose]
  cases s.popInteger 't' with
  | error e => rfl
  | ok r =>
    obtain ⟨v, s⟩ := r
    -- only here does the mode depend on data
    by_cases hv : v = 0
    · simp only [Except.map, bind, Except.bind, hv, if_true, hfails s]
      cases fails s <;> rfl
    · simp only [Except.map, bind, Except.bind, hv, if_false, hholds s]
      cases holds s <;> rfl

/-- A conditional with one part. -/
theorem implements_choose_single {body : Bytes} {holds : Effect} (hbody : Implements o body holds)
    (hskip : body.foldlM (Part.pass .consequence) {} = some {}) :
    Implements o (Bytes.ofAscii ['%', 't'] ++ (body ++ Bytes.ofAscii ['%', ';']))
      (choose holds idle) := by
  refine implements_choose ?_ fun s => ?_
  · simpa using hbody.append (implements_closing o)
  · rw [feed_append_of_silent (feed_skip o .consequence s hskip)]
    exact feed_skip_closing o .consequence s

/-- A conditional with another part, or with further conditions, behind `%e`. -/
theorem implements_choose_otherwise {body rest : Bytes} {holds fails : Effect}
    (hbody : Implements o body holds) (hskip : body.foldlM (Part.pass .consequence) {} = some {})
    (hrest : Implements o (rest ++ Bytes.ofAscii ['%', ';']) fails)
    (hskipRest : rest.foldlM (Part.pass .alternative) {} = some {}) :
    Implements o
      (Bytes.ofAscii ['%', 't'] ++
        (body ++ (Bytes.ofAscii ['%', 'e'] ++ rest ++ Bytes.ofAscii ['%', ';'])))
      (choose holds fails) := by
  refine implements_choose ?_ fun s => ?_
  · simpa using hbody.append (implements_otherwise hskipRest)
  · rw [feed_append_of_silent (feed_skip o .consequence s hskip), List.append_assoc]
    exact (feed_append_of_silent (feed_skip_otherwise o s) _).trans (hrest s)

/-! ## Trees -/

/-- What `Tree.pass_lexemes` says about the text. -/
theorem Tree.foldlM_pass_eq {fe : FormatEnd} {t : Tree}
    (h : t.lexemes.all (Lexeme.isClosed fe) = true) (part : Part) :
    (t.text fe).foldlM part.pass {} = some {} := by
  rw [← t.flatMap_text fe, foldlM_pass_lexemes fe part {} (Lexeme.isValid_of_isClosed h)]
  exact Tree.pass_lexemes h part 0

/-- Closed branches are passed over without a trace. -/
theorem Branches.foldlM_pass_eq {fe : FormatEnd} {b : Branches}
    (h : b.lexemes.all (Lexeme.isClosed fe) = true) :
    (b.text fe).foldlM (Part.pass .alternative) {} = some {} := by
  rw [← b.flatMap_text fe, foldlM_pass_lexemes fe .alternative {} (Lexeme.isValid_of_isClosed h)]
  exact Branches.pass_lexemes h .alternative (.inl rfl)

mutual

/-- The text of a tree without open ends has the effect of the tree. -/
theorem Tree.implements_text (hp : o.padding = .emit) {t : Tree}
    (h : t.lexemes.all (Lexeme.isClosed o.formatEnd) = true) :
    Implements o (t.text o.formatEnd) (t.eval o.operands) := by
  cases t with
  | nil => exact Implements.nil o
  | directive d rest =>
    obtain ⟨hd, hrest⟩ := Bool.and_eq_true_iff.mp h
    have hvalid : d.isValid o.formatEnd = true := (Bool.and_eq_true_iff.mp hd).1
    exact (Directive.implements_text hp hvalid).append (Tree.implements_text hp hrest)
  | conditional b rest =>
    simp only [Tree.lexemes, List.all_append, List.all_cons, Bool.and_eq_true] at h
    obtain ⟨⟨-, hb⟩, -, hrest⟩ := h
    have hbranches := (implements_opening o).append (Branches.implements_text hp hb)
    rw [idle_andThen, ← List.append_assoc] at hbranches
    exact hbranches.append (Tree.implements_text hp hrest)

/-- The text of a conditional up to its last mark has the effect of the conditional. -/
theorem Branches.implements_text (hp : o.padding = .emit) {b : Branches}
    (h : b.lexemes.all (Lexeme.isClosed o.formatEnd) = true) :
    Implements o (b.text o.formatEnd ++ Bytes.ofAscii ['%', ';']) (b.eval o.operands) := by
  -- Of each branch it is known what it does when taken and that it is passed over when not.
  cases b with
  | single condition body =>
    simp only [Branches.lexemes, List.all_append, List.all_cons, Bool.and_eq_true] at h
    obtain ⟨hcondition, -, hbody⟩ := h
    simp only [Branches.text, List.append_assoc]
    exact (Tree.implements_text hp hcondition).append
      (implements_choose_single (Tree.implements_text hp hbody) (Tree.foldlM_pass_eq hbody _))
  | orElse condition body otherwise =>
    simp only [Branches.lexemes, List.all_append, List.all_cons, Bool.and_eq_true] at h
    obtain ⟨⟨hcondition, -, hbody⟩, -, hotherwise⟩ := h
    have hrest := (Tree.implements_text hp hotherwise).append (implements_closing o)
    rw [andThen_idle] at hrest
    have hchoose := implements_choose_otherwise (Tree.implements_text hp hbody)
      (Tree.foldlM_pass_eq hbody _) hrest (Tree.foldlM_pass_eq hotherwise _)
    have hall := (Tree.implements_text hp hcondition).append hchoose
    simpa only [Branches.text, Branches.eval, List.append_assoc] using hall
  | orIf condition body more =>
    simp only [Branches.lexemes, List.all_append, List.all_cons, Bool.and_eq_true] at h
    obtain ⟨⟨hcondition, -, hbody⟩, -, hmore⟩ := h
    have hchoose := implements_choose_otherwise (Tree.implements_text hp hbody)
      (Tree.foldlM_pass_eq hbody _) (Branches.implements_text hp hmore)
      (Branches.foldlM_pass_eq hmore)
    have hall := (Tree.implements_text hp hcondition).append hchoose
    simpa only [Branches.text, Branches.eval, List.append_assoc] using hall

end

/-! ## Expansions -/

/-- A text that implements an effect can be read to its end. -/
theorem Implements.complete {text : Bytes} {e : Effect} (h : Implements o text e) (s : State) :
    Machine.complete o ⟨.text, s⟩ text = e s := by
  rw [Machine.complete, h s]
  cases e s with
  | error e => rfl
  | ok r => simp [Except.map, bind, Except.bind, Machine.finish, Mode.finish, Action.idle,
      Action.exec, Instruction.exec, pure, Except.pure]

/-- Where letters end formats and padding is kept, the expansion of the text of a tree is what the
tree does, beginning with the given arguments, an empty stack, the static variables of the context
and all other variables zero. -/
theorem expand_text (c : Context) (he : c.options.formatEnd = .conversion)
    (hp : c.options.padding = .emit) {t : Tree} (ht : t.isValid .conversion = true)
    (arguments : List Value) :
    c.expand (t.text .conversion) arguments =
      (t.eval c.options.operands
        { stack := []
          arguments
          vars := { statics := c.initialStatics, dynamics := Bank.zero } }).map
        fun r => (r.1, { c with statics := r.2.vars.statics }) := by
  have hclosed : t.lexemes.all (Lexeme.isClosed c.options.formatEnd) = true := by
    rw [he]
    exact Tree.all_isClosed_conversion ht
  have htext : (c.machine arguments).complete c.options (t.text .conversion) =
      t.eval c.options.operands (c.machine arguments).state := by
    rw [← he]
    exact (Tree.implements_text hp hclosed).complete _
  rw [expand_eq_map_complete, htext]
  rfl

/-- The options under which `palette` is written. -/
def paletteOptions : Options := { formatEnd := .conversion, operands := .firstPushed }

/-- The end of a sequence that sets a colour:
`%?%p1%{8}%<%t3%p1%d%e%p1%{16}%<%t9%p1%{8}%-%.2d%e+%p1%d%;m`. -/
def palette : Tree :=
  .conditional
    (.orIf
      (.directive (.argument 0) <| .directive (.number 8) <|
        .directive (.operator (.comparison .less)) .nil)
      (.directive (.byte 0x33) <| .directive (.argument 0) <|
        .directive (.format .letter .decimal) .nil)
      (.orElse
        (.directive (.argument 0) <| .directive (.number 16) <|
          .directive (.operator (.comparison .less)) .nil)
        (.directive (.byte 0x39) <| .directive (.argument 0) <| .directive (.number 8) <|
          .directive (.operator (.arithmetic .sub)) <|
          .directive (.format (.bare ['.', '2']) .decimal) .nil)
        (.directive (.byte 0x2b) <| .directive (.argument 0) <|
          .directive (.format .letter .decimal) .nil)))
    (.directive (.byte 0x6d) .nil)

/-- Color 9 is not below 8 but below 16, so the second branch prints it as bright color 1. -/
theorem expand_text_palette :
    palette.isValid .conversion = true ∧
      ({ options := paletteOptions } : Context).expand (palette.text .conversion) [.integer 9] =
        .ok ([0x39, 0x30, 0x31, 0x6d], { options := paletteOptions }) :=
  ⟨rfl, (expand_text { options := paletteOptions } rfl rfl rfl [.integer 9]).trans rfl⟩

end Terminal.Template
