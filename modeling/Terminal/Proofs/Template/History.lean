import Terminal.Proofs.Template.Run
import Terminal.Template.Session

/-!
# Histories of contexts

A `Request` is put to one of several contexts.  `transcript` pairs the requests of a history with
their answers, and `contextsAfter` is what the history leaves.  The contexts keep nothing of a
request that fails (`transcript_kept`), and each of them lives as if it were alone
(`answers_alone`).  `isHistorySafe` puts together what the requests of a history leave to one
another: nothing but the static variables of the context in which they succeed.
-/

namespace Terminal.Template

/-! ## Requests -/

/-- A request to one of several contexts, with the entry whose capabilities it can name. -/
structure Request where
  entry : Option Entry
  index : Nat
  step : Step

namespace Request

/-- What the contexts answer.  There is no answer if there is no such context. -/
def answer (cs : List Context) (r : Request) : Option Answer :=
  ((⟨r.entry, cs⟩ : Session).step r.index r.step).map Prod.fst

/-- The contexts after the request. -/
def after (cs : List Context) (r : Request) : List Context :=
  match (⟨r.entry, cs⟩ : Session).step r.index r.step with
  | some (_, s) => s.contexts
  | none => cs

/-- The run that the request asks for, under the given options and from the given static variables.
A copy takes no run. -/
def run (o : Options) (statics : Bank) (r : Request) : Option (Except Error (Bytes × State)) :=
  match r.step with
  | .expand template arguments => some ((Machine.start statics arguments).complete o template)
  | .render name arguments =>
    some <|
      match r.entry.bind (·.string? name) with
      | some template => (Machine.start statics arguments).complete o template
      | none => .error (.unsupportedCapability name)
  | .clone => none

/-- Whether the request asks a context for an expansion. -/
def isOwn (index : Nat) (r : Request) : Bool := r.index = index && r.step ≠ .clone

/-- The context that the request was put to, as the request leaves it. -/
def left (c : Context) (r : Request) : Context :=
  match r.run c.options c.initialStatics with
  | some (.ok (_, s)) => { c with statics := s.vars.statics }
  | some (.error _) | none => c

variable {cs : List Context} {r : Request} {c : Context}

/-- An expansion within a session, as the run its request asks for. -/
theorem expansion_eq (c : Context) (r : Request) :
    Session.expansion r.entry c r.step = (r.run c.options c.initialStatics).map fun result =>
      result.map fun q => (q.1, { c with statics := q.2.vars.statics }) := by
  obtain ⟨entry, index, step⟩ := r
  cases step with
  | expand template arguments => exact congrArg some (expand_eq_map_complete c template arguments)
  | render name arguments =>
    cases entry with
    | none => rfl
    | some e =>
      simp only [Session.expansion, Context.render, run, Option.bind_some]
      cases e.string? name with
      | none => rfl
      | some template => exact congrArg some (expand_eq_map_complete c template arguments)
  | clone => rfl

/-- In a context that is there, a run decides the answer, and the place of a copy is the next
one. -/
theorem answer_eq (h : cs[r.index]? = some c) :
    r.answer cs = some (match r.run c.options c.initialStatics with
      | some result => .expansion (result.map Prod.fst)
      | none => .copy cs.length) := by
  simp only [answer, Session.step, h, expansion_eq c r]
  rcases r.run c.options c.initialStatics with _ | (_ | _) <;> rfl

/-- What a request leaves of the contexts: the expanded one updated, all of them as they are after
an error, or one more after a copy. -/
theorem after_eq (h : cs[r.index]? = some c) :
    r.after cs = match r.run c.options c.initialStatics with
      | some (.ok _) => cs.set r.index (r.left c)
      | some (.error _) => cs
      | none => cs ++ [c] := by
  simp only [after, left, Session.step, h, expansion_eq c r]
  rcases r.run c.options c.initialStatics with _ | (_ | _) <;> rfl

/-- A request for a context that does not exist changes nothing. -/
theorem after_of_none (h : cs[r.index]? = none) : r.after cs = cs := by
  simp only [after, Session.step, h]

/-- Only a copy asks for no run. -/
theorem run_eq_none_iff {o : Options} {statics : Bank} :
    r.run o statics = none ↔ r.step = .clone := by
  rw [run]
  cases r.step <;> simp

/-- A copy leaves the context it is taken from as it is. -/
theorem left_of_clone (h : r.step = .clone) (c : Context) : r.left c = c := by
  simp only [left, run, h]

/-- A context is left as the request to it says. -/
theorem getElem?_after_self (h : cs[r.index]? = some c) :
    (r.after cs)[r.index]? = some (r.left c) := by
  have hlt : r.index < cs.length := (List.getElem?_eq_some_iff.mp h).1
  rw [after_eq h]
  cases hrun : r.run c.options c.initialStatics with
  | none => simpa [left, hrun, List.getElem?_append_left hlt] using h
  | some result =>
    cases result with
    | ok q => simp [hlt]
    | error e => simpa [left, hrun] using h

/-- A request for an expansion means the same to a context among others and to one alone. -/
theorem alone (h : cs[r.index]? = some c) (hstep : r.step ≠ .clone) :
    ({ r with index := 0 } : Request).answer [c] = r.answer cs ∧
      ({ r with index := 0 } : Request).after [c] = [r.left c] := by
  have hlone : ([c] : List Context)[({ r with index := 0 } : Request).index]? = some c := rfl
  have hrun : ({ r with index := 0 } : Request).run c.options c.initialStatics =
    r.run c.options c.initialStatics := rfl
  have hleft : ({ r with index := 0 } : Request).left c = r.left c := rfl
  rw [answer_eq hlone, answer_eq h, after_eq hlone, hrun, hleft]
  cases hresult : r.run c.options c.initialStatics with
  | none => exact absurd (run_eq_none_iff.mp hresult) hstep
  | some result =>
    refine ⟨rfl, ?_⟩
    cases result with
    | ok q => rfl
    | error e => simp only [left, hresult]

/-- A request leaves all other contexts as they are. -/
theorem getElem?_after_of_ne {i : Nat} (hi : i ≠ r.index) (h : cs[i]? = some c) :
    (r.after cs)[i]? = some c := by
  have hlt : i < cs.length := (List.getElem?_eq_some_iff.mp h).1
  cases hcontext : cs[r.index]? with
  | none => rwa [after_of_none hcontext]
  | some d =>
    rw [after_eq hcontext]
    rcases r.run d.options d.initialStatics with _ | (_ | _)
    · rwa [List.getElem?_append_left hlt]
    · exact h
    · rwa [List.getElem?_set_ne hi.symm]

end Request

/-- Whether the answer is the error of an expansion. -/
def Answer.isFailure : Answer → Bool
  | .expansion (.error _) => true
  | .expansion (.ok _) | .copy _ => false

/-- A request that fails leaves nothing behind. -/
theorem Request.after_of_isFailure {cs : List Context} {r : Request}
    (h : (r.answer cs).any Answer.isFailure = true) : r.after cs = cs := by
  cases hcontext : cs[r.index]? with
  | none => exact after_of_none hcontext
  | some c =>
    rw [answer_eq hcontext] at h
    rw [after_eq hcontext]
    rcases hrun : r.run c.options c.initialStatics with _ | (_ | _)
    · simp [hrun, Answer.isFailure] at h
    · rfl
    · simp [hrun, Answer.isFailure, Except.map] at h

/-! ## Histories -/

/-- The requests of a history with their answers. -/
def transcript (cs : List Context) : List Request → List (Request × Option Answer)
  | [] => []
  | r :: rs => (r, r.answer cs) :: transcript (r.after cs) rs

/-- The contexts after a history. -/
def contextsAfter (cs : List Context) (rs : List Request) : List Context :=
  rs.foldl Request.after cs

/-- A past is its first request and the requests after it. -/
theorem contextsAfter_cons (cs : List Context) (r : Request) (rs : List Request) :
    contextsAfter cs (r :: rs) = contextsAfter (r.after cs) rs := rfl

/-- The requests of a history that do not fail, with their answers. -/
def kept (cs : List Context) (rs : List Request) : List (Request × Option Answer) :=
  (transcript cs rs).filter fun p => !p.2.any Answer.isFailure

/-- Without the requests that fail, a history has the same answers and leaves the same contexts. -/
theorem transcript_kept (cs : List Context) (rs : List Request) :
    transcript cs ((kept cs rs).map Prod.fst) = kept cs rs ∧
      contextsAfter cs ((kept cs rs).map Prod.fst) = contextsAfter cs rs := by
  induction rs generalizing cs with
  | nil => exact ⟨rfl, rfl⟩
  | cons r rs ih =>
    by_cases hfailure : (r.answer cs).any Answer.isFailure = true
    · have hkept : kept cs (r :: rs) = kept (r.after cs) rs := by
        simp [kept, transcript, hfailure]
      have hafter : r.after cs = cs := Request.after_of_isFailure hfailure
      rw [hkept, contextsAfter_cons, hafter]
      exact ih cs
    · have hkept : kept cs (r :: rs) = (r, r.answer cs) :: kept (r.after cs) rs := by
        simp [kept, transcript, hfailure]
      obtain ⟨htranscript, hcontexts⟩ := ih (r.after cs)
      rw [hkept, List.map_cons, transcript, htranscript, contextsAfter_cons, contextsAfter_cons]
      exact ⟨rfl, hcontexts⟩

/-- What one of the contexts answers to the requests for expansions that are put to it. -/
def answersOf (index : Nat) (cs : List Context) (rs : List Request) : List (Option Answer) :=
  ((transcript cs rs).filter fun p => p.1.isOwn index).map Prod.snd

/-- The requests of a history to one of the contexts, put to the only context that there is. -/
def requestsOf (index : Nat) (rs : List Request) : List Request :=
  (rs.filter (Request.isOwn index)).map fun r => { r with index := 0 }

/-- A context among others answers and ends as if it were alone with the requests to it. -/
theorem answers_alone {cs : List Context} {index : Nat} {c : Context} (h : cs[index]? = some c)
    (rs : List Request) :
    answersOf index cs rs = (transcript [c] (requestsOf index rs)).map Prod.snd ∧
      (contextsAfter cs rs)[index]? = (contextsAfter [c] (requestsOf index rs))[0]? := by
  induction rs generalizing cs c with
  | nil => exact ⟨rfl, h⟩
  | cons r rs ih =>
    -- Requests to other contexts, and copies, are dropped from the history on the right.
    by_cases hown : r.isOwn index = true
    · obtain ⟨rfl, hstep⟩ : r.index = index ∧ r.step ≠ .clone := by
        simpa [Request.isOwn] using hown
      obtain ⟨hanswer, hafter⟩ := Request.alone h hstep
      have hrequests : requestsOf r.index (r :: rs) =
          { r with index := 0 } :: requestsOf r.index rs := by
        simp [requestsOf, hown]
      have hanswers : answersOf r.index cs (r :: rs) =
          r.answer cs :: answersOf r.index (r.after cs) rs := by
        simp [answersOf, transcript, hown]
      obtain ⟨htail, hcontext⟩ := ih (Request.getElem?_after_self h)
      rw [hanswers, hrequests, transcript, List.map_cons, contextsAfter_cons, contextsAfter_cons,
        hanswer, hafter, htail, hcontext]
      exact ⟨rfl, rfl⟩
    · have hrequests : requestsOf index (r :: rs) = requestsOf index rs := by
        simp [requestsOf, hown]
      have hanswers : answersOf index cs (r :: rs) = answersOf index (r.after cs) rs := by
        simp [answersOf, transcript, hown]
      rw [hrequests, hanswers, contextsAfter_cons]
      refine ih ?_
      by_cases hindex : index = r.index
      · subst hindex
        have hstep : r.step = .clone := by simpa [Request.isOwn] using hown
        rw [Request.getElem?_after_self h, Request.left_of_clone hstep]
      · exact Request.getElem?_after_of_ne hindex h

/-! ## What requests leave to one another -/

/-- What requests to contexts in some state have to do with one another. -/
structure IsHistorySafe (cs : List Context) : Prop where
  /-- Where the static variables live for one expansion, a context answers as if it were new. -/
  fresh : ∀ (r : Request) (c : Context), cs[r.index]? = some c →
    c.options.statics = .expansion →
      r.answer cs = r.answer (cs.set r.index { options := c.options })
  /-- Each expansion is a run of its own, from an empty stack, its own arguments and dynamic
  variables that are zero.  It leaves the static variables with which its run ends, or nothing. -/
  own : ∀ (r : Request) (c : Context) (result : Except Error (Bytes × State)),
    cs[r.index]? = some c → r.run c.options c.initialStatics = some result →
      r.answer cs = some (.expansion (result.map Prod.fst)) ∧
        r.after cs = match result with
          | .ok (_, s) => cs.set r.index { c with statics := s.vars.statics }
          | .error _ => cs
  /-- All requests that fail can be left out of a history. -/
  atomic : ∀ rs : List Request,
    transcript cs ((kept cs rs).map Prod.fst) = kept cs rs ∧
      contextsAfter cs ((kept cs rs).map Prod.fst) = contextsAfter cs rs
  /-- A request to one context never changes another. -/
  others : ∀ (r : Request) (index : Nat) (c : Context), index ≠ r.index → cs[index]? = some c →
    (r.after cs)[index]? = some c
  /-- So a context lives through a history as if it were alone. -/
  alone : ∀ (index : Nat) (c : Context), cs[index]? = some c → ∀ rs : List Request,
    answersOf index cs rs = (transcript [c] (requestsOf index rs)).map Prod.snd ∧
      (contextsAfter cs rs)[index]? = (contextsAfter [c] (requestsOf index rs))[0]?
  /-- A copy is a further context, with the options and the static variables of its source. -/
  copies : ∀ (r : Request) (c : Context), cs[r.index]? = some c → r.step = .clone →
    r.answer cs = some (.copy cs.length) ∧ r.after cs = cs ++ [c]

/-- Where static variables live for one expansion, a used context answers like a new one. -/
theorem Request.answer_fresh {cs : List Context} {r : Request} {c : Context}
    (h : cs[r.index]? = some c) (hc : c.options.statics = .expansion) :
    r.answer cs = r.answer (cs.set r.index { options := c.options }) := by
  have hlt : r.index < cs.length := (List.getElem?_eq_some_iff.mp h).1
  have hset : (cs.set r.index { options := c.options })[r.index]? =
      some { options := c.options } := by simp [hlt]
  have hstatics : c.initialStatics = ({ options := c.options } : Context).initialStatics := by
    simp only [Context.initialStatics, hc]
  rw [answer_eq h, answer_eq hset, hstatics, List.length_set]

/-- Whatever was asked of contexts before, and in whatever state they were at the beginning, they
are safe from their history. -/
theorem isHistorySafe (cs : List Context) (past : List Request) :
    IsHistorySafe (contextsAfter cs past) where
  fresh _ _ h hc := Request.answer_fresh h hc
  own r c result h hresult := by
    rw [Request.answer_eq h, Request.after_eq h, Request.left, hresult]
    refine ⟨rfl, ?_⟩
    cases result <;> rfl
  atomic := transcript_kept _
  others _ _ _ hindex h := Request.getElem?_after_of_ne hindex h
  alone _ _ h := answers_alone h
  copies r c h hstep := by
    rw [Request.answer_eq h, Request.after_eq h, Request.run_eq_none_iff.mpr hstep]
    exact ⟨rfl, rfl⟩

/-- The number that the second expansion stores is lost with it: `%{5}%PA`, then
`%{7}%PA%p1` without an argument, then `%gA%d`. -/
example :
    (transcript [{ options := { statics := .context } }]
      [⟨none, 0, .expand (Bytes.ofAscii ['%', '\x7b', '5', '\x7d', '%', 'P', 'A']) []⟩,
        ⟨none, 0, .expand (Bytes.ofAscii ['%', '\x7b', '7', '\x7d', '%', 'P', 'A', '%', 'p', '1'])
          []⟩,
        ⟨none, 0, .expand (Bytes.ofAscii ['%', 'g', 'A', '%', 'd']) []⟩]).map Prod.snd =
      [some (.expansion (.ok [])), some (.expansion (.error (.missingArgument '1'))),
        some (.expansion (.ok [0x35]))] := rfl

end Terminal.Template
