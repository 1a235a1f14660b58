import Stardust.Errors.TryCatch

/-!
# Wrapped errors

Errors are wrapped in three ways: by the wrappers of the errors packages, by `StackError`, which
keeps what it is given but has no `Unwrap`, and by `wrappedError`, whose `Unwrap` returns the inner
of its two errors. A handler is found through `errors.Is`, which sees only what `Unwrap` returns.
-/

namespace Stardust.Errors

open Stardust.Core

/-- An error that is known by its identity. -/
structure Sentinel where
  id : Nat
  text : String
  deriving DecidableEq

/-- A value of type `error`. -/
inductive GoError where
  | nil
  | sentinel (s : Sentinel)
  /-- The error of a panic with nil. -/
  | panicNilError
  | errorString (text : String)
  /-- A message with a stack. -/
  | fundamental (msg : String)
  | withStack (err : GoError)
  | withMessage (err : GoError) (msg : String)
  | joinError (errs : List GoError)
  | stackError (code : Int) (err : GoError) (extraErrs : List GoError)
  | wrappedError (outer inner : GoError)

namespace GoError

/-- The error is nil. -/
def isNil : GoError → Bool
  | nil => true
  | _ => false

mutual

/-- The text of `Error()`. Nothing if this panics at a nil error. -/
def error : GoError → Option String
  | nil => none
  | sentinel s => some s.text
  | panicNilError => some "panic called with nil argument (use GODEBUG=panicnil=1 to disable)"
  | errorString text => some text
  | fundamental msg => some msg
  | withStack err => err.error
  | withMessage err msg => err.error.map fun text => msg ++ ": " ++ text
  | joinError errs => (errors errs).map fun texts => "\n".intercalate texts
  | stackError _ err _ => err.error
  | wrappedError outer _ => outer.error

/-- The texts of all errors, absent if one panics. -/
def errors : List GoError → Option (List String)
  | [] => some []
  | err :: errs => do
    let text ← err.error
    let texts ← errors errs
    return text :: texts

end

mutual

/-- `errors.Is`: the target is the error or what it unwraps to. -/
def is (target : Sentinel) : GoError → Bool
  | nil => false
  | sentinel s => s = target
  | panicNilError => false
  | errorString _ => false
  | fundamental _ => false
  | withStack err => err.is target
  | withMessage err _ => err.is target
  | joinError errs => isAny target errs
  | stackError _ _ _ => false
  | wrappedError _ inner => inner.is target

/-- Some error matches. -/
def isAny (target : Sentinel) : List GoError → Bool
  | [] => false
  | err :: errs => err.is target || isAny target errs

end

end GoError

section Functions

/-- `WithStack` of the errors package. -/
def pkgWithStack : GoError → GoError
  | .nil => .nil
  | err => .withStack err

/-- `Wrap` of the errors package, and `Wrapf` by the message it formats. -/
def pkgWrap (err : GoError) (message : String) : GoError :=
  match err with
  | .nil => .nil
  | err => .withStack (.withMessage err message)

/-- `New`. -/
def new (s : String) (code : Int) (extras : List GoError) : GoError :=
  .stackError code (.fundamental s) extras

/-- Nil errors are left out, and nothing else joins to nil. -/
def join (errs : List GoError) : GoError :=
  match errs.filter fun err => !err.isNil with
  | [] => .nil
  | errs => .joinError errs

/-- `WithStack`. -/
def withStack (err : GoError) (code : Int) (extras : List GoError) : GoError :=
  .stackError code (pkgWithStack err) extras

/-- `WithMessage`. -/
def withMessage (err : GoError) (msg : String) (code : Int) (extras : List GoError) : GoError :=
  .stackError code (pkgWrap (pkgWithStack err) msg) extras

/-- The message is the format with its arguments filled in. -/
def withMessageF (err : GoError) (message : String) (code : Int) : GoError :=
  .stackError code (pkgWrap err message) []

/-- `Wrap`. -/
def wrap (outer inner : GoError) : GoError := .wrappedError outer inner

/-- Nothing if the text of the error panics. -/
def wrapf (format : String) (err : GoError) : Option GoError :=
  let outerMsg := if err.isNil then some "<nil>" else err.error
  outerMsg.map fun outerMsg =>
    wrap (.errorString (format.replace "\x7b\x7berr\x7d\x7d" outerMsg)) err

end Functions

/-- A nesting of calls over sentinel errors. -/
inductive Nesting where
  | sentinel (s : Sentinel)
  | new (s : String) (code : Int) (extras : List Nesting)
  | withStack (err : Nesting) (code : Int) (extras : List Nesting)
  | withMessage (err : Nesting) (msg : String) (code : Int) (extras : List Nesting)
  | withMessageF (err : Nesting) (message : String) (code : Int)
  | wrap (outer inner : Nesting)
  | wrapf (format : String) (err : Nesting)
  | join (errs : List Nesting)

namespace Nesting

mutual

/-- The error that the calls return, unless one of them panics. -/
def build : Nesting → Option GoError
  | sentinel s => some (.sentinel s)
  | new s code extras => return Errors.new s code (← buildAll extras)
  | withStack err code extras => return Errors.withStack (← err.build) code (← buildAll extras)
  | withMessage err msg code extras =>
    return Errors.withMessage (← err.build) msg code (← buildAll extras)
  | withMessageF err message code => return Errors.withMessageF (← err.build) message code
  | wrap outer inner => return Errors.wrap (← outer.build) (← inner.build)
  | wrapf format err => do Errors.wrapf format (← err.build)
  | join errs => return Errors.join (← buildAll errs)

/-- All errors of a list of nestings. -/
def buildAll : List Nesting → Option (List GoError)
  | [] => some []
  | n :: ns => return (← n.build) :: (← buildAll ns)

end

/-- The errors that a call is given. -/
def args : Nesting → List Nesting
  | sentinel _ => []
  | new _ _ extras => extras
  | withStack err _ extras => err :: extras
  | withMessage err _ _ extras => err :: extras
  | withMessageF err _ _ => [err]
  | wrap outer inner => [outer, inner]
  | wrapf _ err => [err]
  | join errs => errs

/-- The errors given to a call to which its result unwraps. -/
def unwrapped : Nesting → List Nesting
  | wrap _ inner => [inner]
  | wrapf _ err => [err]
  | join errs => errs
  | _ => []

/-- A sentinel is used anywhere in the nesting. -/
inductive Uses (s : Sentinel) : Nesting → Prop where
  | here : Uses s (.sentinel s)
  | arg {n a : Nesting} (hmem : a ∈ n.args) (harg : Uses s a) : Uses s n

/-- A sentinel is used at a place to which the whole error unwraps. -/
inductive Exposes (s : Sentinel) : Nesting → Prop where
  | here : Exposes s (.sentinel s)
  | through {n a : Nesting} (hmem : a ∈ n.unwrapped) (harg : Exposes s a) : Exposes s n

private theorem exposes_sentinel {s t : Sentinel} : (sentinel t).Exposes s ↔ t = s := by
  constructor
  · intro h
    cases h with
    | here => rfl
    | through hmem => cases hmem
  · rintro rfl
    exact .here

/-- Apart from the sentinels, only what a call unwraps to counts. -/
theorem exposes_iff_unwrapped {s : Sentinel} {n : Nesting} (hcall : ∀ t, n ≠ .sentinel t) :
    n.Exposes s ↔ ∃ a ∈ n.unwrapped, a.Exposes s := by
  constructor
  · intro h
    cases h with
    | here => exact absurd rfl (hcall s)
    | through hmem harg => exact ⟨_, hmem, harg⟩
  · rintro ⟨a, hmem, harg⟩
    exact .through hmem harg

private theorem not_exposes_of_unwrapped_nil {s : Sentinel} {n : Nesting}
    (hcall : ∀ t, n ≠ .sentinel t) (hnil : n.unwrapped = []) : ¬n.Exposes s := by
  rw [exposes_iff_unwrapped hcall, hnil]
  rintro ⟨a, hmem, _⟩
  cases hmem

end Nesting

private theorem is_of_isNil {s : Sentinel} {err : GoError} (hnil : err.isNil = true) :
    err.is s = false := by
  cases err with
  | nil => rfl
  | _ => cases hnil

private theorem isAny_filter (s : Sentinel) (errs : List GoError) :
    GoError.isAny s (errs.filter fun err => !err.isNil) = GoError.isAny s errs := by
  induction errs with
  | nil => rfl
  | cons err errs ih =>
    cases hnil : err.isNil with
    | true => simp [hnil, GoError.isAny, is_of_isNil hnil, ih]
    | false => simp [hnil, GoError.isAny, ih]

private theorem is_wrap (s : Sentinel) (outer inner : GoError) :
    (wrap outer inner).is s = inner.is s := rfl

private theorem is_join (s : Sentinel) (errs : List GoError) :
    (join errs).is s = GoError.isAny s errs := by
  rw [← isAny_filter]
  unfold join
  cases errs.filter fun err => !err.isNil <;> rfl

namespace Nesting

mutual

/-- By recursion on the nesting: `errors.Is` goes exactly where the calls unwrap. -/
theorem is_iff_exposes (s : Sentinel) : ∀ (n : Nesting) {e : GoError}, n.build = some e →
    (e.is s = true ↔ n.Exposes s)
  | sentinel t, e, hbuild => by
    obtain rfl := Option.some.inj hbuild
    rw [exposes_sentinel]
    exact decide_eq_true_iff
  | new msg code extras, e, hbuild => by
    obtain ⟨es, _, hreturn⟩ := Option.bind_eq_some_iff.mp hbuild
    obtain rfl := Option.some.inj hreturn
    exact iff_of_false Bool.false_ne_true (not_exposes_of_unwrapped_nil nofun rfl)
  | withStack err code extras, e, hbuild => by
    obtain ⟨inner, _, hbuild⟩ := Option.bind_eq_some_iff.mp hbuild
    obtain ⟨es, _, hreturn⟩ := Option.bind_eq_some_iff.mp hbuild
    obtain rfl := Option.some.inj hreturn
    exact iff_of_false Bool.false_ne_true (not_exposes_of_unwrapped_nil nofun rfl)
  | withMessage err msg code extras, e, hbuild => by
    obtain ⟨inner, _, hbuild⟩ := Option.bind_eq_some_iff.mp hbuild
    obtain ⟨es, _, hreturn⟩ := Option.bind_eq_some_iff.mp hbuild
    obtain rfl := Option.some.inj hreturn
    exact iff_of_false Bool.false_ne_true (not_exposes_of_unwrapped_nil nofun rfl)
  | withMessageF err message code, e, hbuild => by
    obtain ⟨inner, _, hreturn⟩ := Option.bind_eq_some_iff.mp hbuild
    obtain rfl := Option.some.inj hreturn
    exact iff_of_false Bool.false_ne_true (not_exposes_of_unwrapped_nil nofun rfl)
  | wrap outer inner, e, hbuild => by
    obtain ⟨o, _, hbuild⟩ := Option.bind_eq_some_iff.mp hbuild
    obtain ⟨i, hinner, hreturn⟩ := Option.bind_eq_some_iff.mp hbuild
    obtain rfl := Option.some.inj hreturn
    rw [exposes_iff_unwrapped (n := .wrap outer inner) nofun]
    simpa [unwrapped, is_wrap] using is_iff_exposes s inner hinner
  | wrapf format err, e, hbuild => by
    obtain ⟨i, hinner, hbuild⟩ := Option.bind_eq_some_iff.mp hbuild
    obtain ⟨outerMsg, _, rfl⟩ := Option.map_eq_some_iff.mp hbuild
    rw [exposes_iff_unwrapped (n := .wrapf format err) nofun]
    simpa [unwrapped, is_wrap] using is_iff_exposes s err hinner
  | join errs, e, hbuild => by
    obtain ⟨es, hall, hreturn⟩ := Option.bind_eq_some_iff.mp hbuild
    obtain rfl := Option.some.inj hreturn
    rw [is_join, exposes_iff_unwrapped (n := .join errs) nofun]
    exact isAny_iff_exposes s errs hall

private theorem isAny_iff_exposes (s : Sentinel) : ∀ (ns : List Nesting) {es : List GoError},
    buildAll ns = some es → (GoError.isAny s es = true ↔ ∃ n ∈ ns, n.Exposes s)
  | [], es, hbuild => by
    obtain rfl := Option.some.inj hbuild
    simp [GoError.isAny]
  | n :: ns, es, hbuild => by
    obtain ⟨e, hfirst, hbuild⟩ := Option.bind_eq_some_iff.mp hbuild
    obtain ⟨es, hrest, hreturn⟩ := Option.bind_eq_some_iff.mp hbuild
    obtain rfl := Option.some.inj hreturn
    rw [GoError.isAny, Bool.or_eq_true, is_iff_exposes s n hfirst, isAny_iff_exposes s ns hrest]
    simp only [List.mem_cons, exists_eq_or_imp]

end

end Nesting

section Catching

variable {S W : Type} (format : W → String)

/-- Errors as they are matched in a chain. Other values are formatted into an error. -/
def goErrors : ErrorOps GoError Sentinel W where
  is err target := err.is target
  errorf v := .errorString ("panic: " ++ format v)

/-- The error with which a panic is recovered. -/
def recovered : GoError → GoError
  | .nil => .panicNilError
  | err => err

/-- `Try(func(){panic(e)}).Catch(s, h).Do()`. -/
def tryPanicCatch (e : GoError) (s : Sentinel) (h : GoError → Code S GoError W Unit) :
    Code S GoError W Unit :=
  (chain (throw (.error (recovered e))) [.catch_ s h]).do_ (goErrors format)

private theorem recovered_of_is {s : Sentinel} {e : GoError} (his : e.is s = true) :
    recovered e = e := by
  cases e with
  | nil => cases his
  | _ => rfl

/-- The handler is called with the error, or the error goes on uncaught. -/
theorem exec_tryPanicCatch (e : GoError) (s : Sentinel) (h : GoError → Code S GoError W Unit)
    (st : S) :
    (tryPanicCatch format e s h).exec st =
      if e.is s then (h e).exec st else (.error (.error (recovered e)), st) := by
  have hanswer : answering (goErrors format) [.catch_ s h] (.error (.error (recovered e))) =
      if e.is s then some (h (recovered e)) else none := by
    have his : (goErrors format).is (recovered e) s = e.is s := by cases e <;> rfl
    simp only [answering, toError, catchesOf, List.filterMap_cons, List.filterMap_nil,
      List.find?_cons, his]
    cases e.is s <;> rfl
  unfold tryPanicCatch
  rw [exec_do]
  unfold finished answered
  rw [Go.exec_throw, hanswer]
  cases his : e.is s with
  | true =>
    rw [recovered_of_is his]
    rfl
  | false => rfl

/-- An error built by nested calls is caught for a sentinel exactly if it unwraps to a place where
this is used. -/
theorem caught_iff_exposes (n : Nesting) (e : GoError) (hbuild : n.build = some e) (s : Sentinel)
    (h : GoError → Code S GoError W Unit) (st : S) :
    (e.is s = true ↔ n.Exposes s) ∧
      (n.Exposes s → (tryPanicCatch format e s h).exec st = (h e).exec st) ∧
      (¬n.Exposes s → (tryPanicCatch format e s h).exec st =
        (.error (.error (recovered e)), st)) := by
  have his := n.is_iff_exposes s hbuild
  rw [exec_tryPanicCatch]
  refine ⟨his, fun hexposes => if_pos (his.mpr hexposes), fun hexposes => if_neg ?_⟩
  exact fun h => hexposes (his.mp h)

/-- A sentinel. -/
def notFound : Sentinel := ⟨0, "not found"⟩

/-- Another one. -/
def timeout : Sentinel := ⟨1, "timeout"⟩

/-- A handler that counts its calls. -/
def counting (_ : GoError) : Code Nat GoError Unit Unit := modify (· + 1)

/-- As the inner error of a wrapped error, among joined ones, a sentinel is caught. -/
theorem inner_joined_caught :
    (Nesting.wrap (.sentinel timeout) (.join [.sentinel timeout, .sentinel notFound])).build =
        some (.wrappedError (.sentinel timeout)
          (.joinError [.sentinel timeout, .sentinel notFound])) ∧
      (tryPanicCatch (fun _ => "()") (.wrappedError (.sentinel timeout)
        (.joinError [.sentinel timeout, .sentinel notFound])) notFound counting).exec 0 =
          (.ok (), 1) :=
  ⟨rfl, (caught_iff_exposes (fun _ => "()") (.wrap (.sentinel timeout)
      (.join [.sentinel timeout, .sentinel notFound])) _ rfl notFound counting 0).2.1
    (.through (a := .join [.sentinel timeout, .sentinel notFound]) (List.mem_singleton_self _)
      (.through (a := .sentinel notFound) (by simp [Nesting.unwrapped]) .here))⟩

/-- `WithStack(notFound)` is not caught as `notFound`, and neither is `Wrap(notFound, timeout)`. -/
theorem wrapped_sentinel_uncaught :
    (Nesting.withStack (.sentinel notFound) 404 []).Uses notFound ∧
      (Nesting.withStack (.sentinel notFound) 404 []).build =
        some (.stackError 404 (.withStack (.sentinel notFound)) []) ∧
      (GoError.stackError 404 (.withStack (.sentinel notFound)) []).is notFound = false ∧
      (tryPanicCatch (fun _ => "()") (.stackError 404 (.withStack (.sentinel notFound)) [])
        notFound counting).exec 0 =
          (.error (.error (.stackError 404 (.withStack (.sentinel notFound)) [])), 0) ∧
      (Nesting.wrap (.sentinel notFound) (.sentinel timeout)).Uses notFound ∧
      (Nesting.wrap (.sentinel notFound) (.sentinel timeout)).build =
        some (.wrappedError (.sentinel notFound) (.sentinel timeout)) ∧
      (GoError.wrappedError (.sentinel notFound) (.sentinel timeout)).is notFound = false :=
  ⟨.arg (List.mem_singleton_self _) .here, rfl, rfl, rfl,
    .arg (List.mem_cons_self ..) .here, rfl, rfl⟩

end Catching

end Stardust.Errors
