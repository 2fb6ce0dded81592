import Mathlib.Data.List.Infix
import Terminal.Proofs.Template.Correspondence
import Terminal.Proofs.Template.Reader

/-!
# Static variables that a template does not name

A template uses a static variable only where `%g` or `%P` and its letter stand one behind the other
in it.  A mode tells how much of such a spelling has just been read, and a byte adds no more to it
than itself (`spells_of_read`); so a text without the spelling never asks for the instruction,
whatever parts of it are passed over (`admits_of_not_isInfix`).  Then two runs that differ in the
variable correspond, and a run that cannot store the variable corresponds to itself
(`doesNotInterfere`).
-/

namespace Terminal.Template

/-! ## Spellings of instructions -/

/-- How an instruction that names a variable is spelled in a template. -/
def Instruction.spelled : Instruction → Bytes
  | store v => Bytes.ofAscii ['%', 'P', v.symbol]
  | fetch v => Bytes.ofAscii ['%', 'g', v.symbol]
  | _ => []

/-- The beginning of such a spelling behind which the reader stands. -/
def Mode.spelled : Mode → Bytes
  | percent => Bytes.ofAscii ['%']
  | store => Bytes.ofAscii ['%', 'P']
  | fetch => Bytes.ofAscii ['%', 'g']
  | _ => []

/-- A directive of one character spells nothing that the next one could continue. -/
theorem Instruction.spelled_of_ofChar? {c : Char} {i : Instruction} (h : ofChar? c = some i) :
    i.spelled = [] := by
  unfold ofChar? at h
  split at h
  · cases h
    rfl
  · cases h
    rfl
  · cases h
    rfl
  · split at h <;> cases h <;> rfl

/-- Behind a directive of a skipped part nothing has been spelled. -/
theorem Mode.spelled_skipDirective (part : Part) (depth : Nat) (c : Char) :
    (skipDirective part depth c).spelled = [] := by
  unfold skipDirective
  split
  case h_3 => split <;> rfl
  all_goals rfl

/-- A variable is named by its own letter only. -/
theorem Variable.eq_symbol_of_ofChar? {c : Char} {v : Variable} (h : ofChar? c = some v) :
    c = v.symbol := by
  unfold ofChar? at h
  split at h
  · next upper =>
    cases h
    have hc : 65 + (c.toNat - 65) = c.toNat := by omega
    simp only [symbol, hc, Char.ofNat_toNat]
  · split at h
    · next lower =>
      cases h
      have hc : 97 + (c.toNat - 97) = c.toNat := by omega
      simp only [symbol, hc, Char.ofNat_toNat]
    · cases h

/-- What a byte asks for and where it leads is spelled by what was read before and the byte. -/
structure Spells (mode : Mode) (b : UInt8) (action : Action) (next : Mode) : Prop where
  instruction : ∀ i, action = .run i → i.spelled <:+ mode.spelled ++ [b]
  next : next.spelled <:+ mode.spelled ++ [b]

section Reading

variable {o : Options} {mode next : Mode} {b : UInt8} {action : Action} {i : Instruction}

/-- An instruction that names no variable, and a mode that begins no spelling, ask for nothing. -/
theorem Spells.of_run (hi : i.spelled = []) (hnext : next.spelled = []) :
    Spells mode b (.run i) next where
  instruction j hj := by
    cases hj
    rw [hi]
    exact List.nil_suffix
  next := by
    rw [hnext]
    exact List.nil_suffix

/-- What has been spelled grows with each byte read, or starts afresh. -/
theorem spells_of_read (h : mode.read o b = .ok (action, next)) : Spells mode b action next := by
  have hbyte {c : Char} (hc : Char.ofUInt8 b = c) : b = c.toUInt8 := by
    rw [← hc, toUInt8_ofUInt8]
  cases reads_of_read h with
  | percent => exact ⟨fun i hi => by cases hi; exact List.nil_suffix, List.suffix_append _ _⟩
  | openStore hc =>
    obtain rfl := hbyte hc
    exact ⟨fun i hi => by cases hi; exact List.nil_suffix, List.suffix_refl _⟩
  | openFetch hc =>
    obtain rfl := hbyte hc
    exact ⟨fun i hi => by cases hi; exact List.nil_suffix, List.suffix_refl _⟩
  | store hv | fetch hv =>
    obtain rfl := hbyte (Variable.eq_symbol_of_ofChar? hv)
    exact ⟨fun i hi => by cases hi; exact List.suffix_refl _, List.nil_suffix⟩
  | instruction hi => exact .of_run (Instruction.spelled_of_ofChar? hi) rfl
  | test => exact ⟨nofun, List.nil_suffix⟩
  | skipDirective part depth => exact .of_run rfl (Mode.spelled_skipDirective part depth _)
  | _ => exact .of_run rfl rfl

/-- A text in which the spelling of an instruction does not stand, also across its beginning, does
not lead to that instruction. -/
theorem admits_of_not_isInfix {t : Bytes} (h : ¬i.spelled <:+: mode.spelled ++ t) :
    Admits o (· ≠ i) mode t := by
  have hnamed : i.spelled ≠ [] := fun hi => h (hi ▸ List.nil_infix)
  induction t generalizing mode with
  | nil =>
    -- at the end of a template no variable is used
    rintro j hj rfl
    rcases emits_or_prints_of_finish hj with ⟨text, hrun⟩ | ⟨f, k, hrun⟩ <;> cases hrun <;>
      exact hnamed rfl
  | cons b bs ih =>
    intro action next hread
    have hspells := spells_of_read hread
    have hsplit : mode.spelled ++ b :: bs = (mode.spelled ++ [b]) ++ bs := by simp
    rw [hsplit] at h
    refine ⟨?_, ih fun hnext => h ?_, ih fun hskip => h ?_⟩
    · rintro j hj rfl
      exact h (((hspells.instruction j hj).isInfix).trans (List.prefix_append _ _).isInfix)
    · obtain ⟨front, hfront⟩ := hspells.next
      refine hnext.trans (List.IsSuffix.isInfix ⟨front, ?_⟩)
      rw [← List.append_assoc, hfront]
    · exact hskip.trans (List.suffix_append _ bs).isInfix

end Reading

/-! ## Runs that differ in one static variable -/

/-- Variables that agree but for a static variable `x`.  That one is the same in both, or each still
has the value it began with. -/
structure Variables.Apart (x : Fin 26) (start start' : Int32) (vs vs' : Variables) : Prop where
  others : ∀ w, w ≠ .static x → vs'.get w = vs.get w
  own : vs'.get (.static x) = vs.get (.static x) ∨
    vs.get (.static x) = start ∧ vs'.get (.static x) = start'

/-- Storing the same value in both keeps variables apart in one static variable at most. -/
theorem Variables.Apart.set {x : Fin 26} {start start' : Int32} {vs vs' : Variables}
    (h : Apart x start start' vs vs') (v : Variable) (n : Int32) :
    Apart x start start' (vs.set v n) (vs'.set v n) := by
  have hget (w : Variable) (hw : v ≠ w → vs'.get w = vs.get w) :
      (vs'.set v n).get w = (vs.set v n).get w := by
    by_cases hv : v = w
    · subst hv
      rw [get_set_self, get_set_self]
    · rw [get_set_of_ne vs' n hv, get_set_of_ne vs n hv, hw hv]
  refine ⟨fun w hw => hget w fun _ => h.others w hw, ?_⟩
  by_cases hv : v = .static x
  · exact .inl (hget _ fun hne => absurd hv hne)
  · rw [get_set_of_ne vs n hv, get_set_of_ne vs' n hv]
    exact h.own

namespace Correspondence

/-- The same stack and the same arguments, and variables that belong together. -/
def ofVars (vars : Variables → Variables → Prop) : Correspondence where
  excused _ := False
  below := []
  arguments := Eq
  vars := vars

/-- Every instruction but a fetch of the variable keeps two states apart in it at most. -/
theorem keeps_apart (x : Fin 26) (start start' : Int32) :
    (ofVars (Variables.Apart x start start')).Keeps (· ≠ .fetch (.static x)) :=
  keeps_of_arguments_eq rfl (.inl rfl) (fun v n _ hvs => hvs.set v n) fun v hv hvs =>
    hvs.others v fun hx => hv (congrArg _ hx)

/-- A run beside itself keeps the value of a static variable that it does not store. -/
theorem keeps_holding (x : Fin 26) (n : Int32) :
    (ofVars fun vs vs' => vs' = vs ∧ vs.get (.static x) = n).Keeps (· ≠ .store (.static x)) := by
  refine keeps_of_arguments_eq rfl (.inl rfl) (fun {vs vs'} v m hv hvs => ⟨by rw [hvs.1], ?_⟩)
    fun v _ hvs => by rw [hvs.1]
  rw [Variables.get_set_of_ne vs m fun hx => hv (congrArg _ hx)]
  exact hvs.2

end Correspondence

/-! ## Contexts -/

namespace Context

/-- Contexts with the same options, and the same static variables but for one. -/
structure AgreeBut (x : Fin 26) (c d : Context) : Prop where
  options : d.options = c.options
  statics : ∀ y, y ≠ x → d.statics.value y = c.statics.value y

/-- Two expansions with the same output, in contexts that differ in one static variable.  They leave
contexts that again differ only there, and either the variable is then the same in both, or neither
expansion has changed it. -/
structure LeavesAlike (x : Fin 26) (c d : Context) (r r' : Bytes × Context) : Prop where
  output : r'.1 = r.1
  others : AgreeBut x r.2 r'.2
  own : r'.2.statics.value x = r.2.statics.value x ∨
    r.2.statics.value x = c.statics.value x ∧ r'.2.statics.value x = d.statics.value x

/-- A static variable that a template does not name has no part in an expansion: one that is not
fetched does not show, and one that is not stored stays as it is. -/
structure DoesNotInterfere (c : Context) (x : Fin 26) (t : Bytes) (arguments : List Value) :
    Prop where
  unfetched : ¬Bytes.ofAscii ['%', 'g', (Variable.static x).symbol] <:+: t →
    ∀ d, AgreeBut x c d →
      Alike (fun _ => False) (LeavesAlike x c d) (c.expand t arguments) (d.expand t arguments)
  unstored : ¬Bytes.ofAscii ['%', 'P', (Variable.static x).symbol] <:+: t →
    ∀ out d, c.expand t arguments = .ok (out, d) → d.statics.value x = c.statics.value x

/-- A context that keeps its static variables starts from them. -/
theorem initialStatics_of_context {c : Context} (h : c.options.statics = .context) :
    c.initialStatics = c.statics := by
  simp only [initialStatics, h]

/-- In a context whose static variables stay between expansions, no static variable has a part in an
expansion that does not name it. -/
theorem doesNotInterfere (c : Context) (h : c.options.statics = .context) (x : Fin 26) (t : Bytes)
    (arguments : List Value) : c.DoesNotInterfere x t arguments where
  -- Two runs, apart in the variable at most.
  unfetched ht d hd := by
    have hkeeps := Correspondence.keeps_apart x (c.statics.value x) (d.statics.value x)
    have hadmits : Admits c.options (· ≠ .fetch (.static x)) .text t := admits_of_not_isInfix ht
    have hstart : Variables.Apart x (c.statics.value x) (d.statics.value x)
        { statics := c.initialStatics } { statics := d.initialStatics } := by
      rw [initialStatics_of_context h, initialStatics_of_context (hd.options ▸ h)]
      refine ⟨fun w hw => ?_, .inr ⟨rfl, rfl⟩⟩
      cases w with
      | static y => exact hd.statics y fun hy => hw (congrArg _ hy)
      | dynamic y => rfl
    refine (hkeeps.expand rfl hd.options hadmits rfl hstart).mono ?_
    rintro ⟨out, c'⟩ ⟨out', d'⟩ ⟨hout, vs, vs', hvs, rfl, rfl⟩
    exact ⟨hout, ⟨hd.options, fun y hy => hvs.others (.static y) fun hxy => hy (by cases hxy; rfl)⟩,
      hvs.own⟩
  -- One run beside itself: the correspondence says that the variable keeps its value.
  unstored ht out d hd := by
    have hkeeps := Correspondence.keeps_holding x (c.statics.value x)
    have hadmits : Admits c.options (· ≠ .store (.static x)) .text t := admits_of_not_isInfix ht
    have hstart : ({ statics := c.initialStatics } : Variables).get (.static x) =
        c.statics.value x := by
      rw [initialStatics_of_context h]
      rfl
    have hrun : Alike _ _ (c.expand t arguments) (c.expand t arguments) :=
      hkeeps.expand rfl rfl hadmits rfl ⟨rfl, hstart⟩
    rw [hd] at hrun
    obtain ⟨-, vs, vs', ⟨-, hvs⟩, rfl, -⟩ := hrun.of_ok
    exact hvs

/-- A context in which the static variables stay between expansions and all but one are zero. -/
def holding (x : Fin 26) (n : Int32) : Context :=
  ⟨{ statics := .context }, (({} : Variables).set (.static x) n).statics⟩

/-- The template `%?%p1%t%{7}%PA%;%gB%d`, which stores `A` in one branch and fetches it nowhere. -/
def storingA : Bytes :=
  Bytes.ofAscii ['%', '?', '%', 'p', '1', '%', 't', '%', '\x7b', '7', '\x7d', '%', 'P', 'A',
    '%', ';', '%', 'g', 'B', '%', 'd']

/-- A template that stores `A` and never fetches it, from two values of `A`. -/
theorem doesNotInterfere_storingA :
    (holding 0 5).options.statics = .context ∧ ¬Bytes.ofAscii ['%', 'g', 'A'] <:+: storingA ∧
      AgreeBut 0 (holding 0 5) (holding 0 9) ∧
      Alike (fun _ => False) (LeavesAlike 0 (holding 0 5) (holding 0 9))
        ((holding 0 5).expand storingA [.integer 1])
        ((holding 0 9).expand storingA [.integer 1]) := by
  have hunfetched : ¬Bytes.ofAscii ['%', 'g', 'A'] <:+: storingA := by decide
  have hagree : AgreeBut 0 (holding 0 5) (holding 0 9) := ⟨rfl, by decide⟩
  exact ⟨rfl, hunfetched, hagree,
    (doesNotInterfere (holding 0 5) rfl 0 storingA [.integer 1]).unfetched hunfetched _ hagree⟩

end Context

end Terminal.Template
