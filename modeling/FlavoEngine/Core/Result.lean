import FlavoEngine.Core.Text

/-!
# Results and their error messages

`kernel/source/core/ftl/result.h` over `sdk/result/result.h`. A fallible function returns a
`result`; its caller tests it with `RETURN_ON_ERROR`, which appends one message to the error inside
the caller's local and moves that error out into the value it returns.

* A constructor that takes its argument by value, or as an rvalue, and moves from it is the
  function of that value.
* A chain of calls is a list of frames, innermost first; each frame has its own result type and
  says what the function does with a callee's success.

Results:
1. `joinMessages_eq`: `join_messages()` joins the messages by single line ends.
2. `Chain.run_err`: a chain appends its contexts to the error that reaches it, innermost first.
3. `error_chain`: the messages of an error that `make_error` raised under a chain of calls.
-/

namespace FlavoEngine.Core

open Text

/-! ## Messages -/

/-- `std::source_location`, of which the messages use two members. `file_name()` is a C string. -/
structure SourceLocation where
  fileName : Text
  line : UInt32
  fileName_noNul : '\x00' ∉ fileName

/-- The part of `file_name()` that `make_error_message` shows. -/
def shownFileName (fileNameView : Text) : Text :=
  match rfind fileNameView '/' with
  | some slashIt => fileNameView.substr (slashIt + 1)
  | none =>
    match rfind fileNameView '\\' with
    | some backslashIt => fileNameView.substr (backslashIt + 1)
    | none => fileNameView

/-- `internal::make_error_message(msg, src_location)`. -/
def makeErrorMessage (msg : Text) (srcLocation : SourceLocation) : Text :=
  format "{} [{}({})]".toList
    [msg, shownFileName srcLocation.fileName, decimal srcLocation.line.toNat]

/-! ## `error_type` -/

/-- `error_type<E>`. -/
structure ErrorType (E : Type) where
  mData : E
  mMessages : List Text
deriving DecidableEq

namespace ErrorType

variable {E : Type}

/-- `error_type(val, msg)`. The message is pushed as `msg.data()`. -/
def construct (val : E) (msg : Text) : ErrorType E :=
  { mData := val, mMessages := [msg.cstr] }

/-- `add_message(msg, src_location)`. -/
def addMessage (e : ErrorType E) (msg : Text) (srcLocation : SourceLocation) : ErrorType E :=
  { e with mMessages := e.mMessages ++ [makeErrorMessage msg srcLocation] }

/-- `join_messages()`. -/
def joinMessages (e : ErrorType E) : Text :=
  let tmp := e.mMessages.foldl (fun tmp s => (tmp ++ s) ++ ['\n']) []
  if tmp.isEmpty then tmp else tmp.dropLast

end ErrorType

/-! ## `Result` -/

/-- `Ok<T>`. -/
structure Ok (T : Type) where
  value : T

/-- `Err<E>`. -/
structure Err (E : Type) where
  value : E

inductive ResultKind where
  | ok
  | err
deriving DecidableEq

/-- `ResultStorage<T, E>`: the tag and the object that lives in `m_data`. -/
inductive ResultStorage (T E : Type) where
  | ok (val : T)
  | err (val : E)
deriving DecidableEq

/-- `kind()`. -/
def ResultStorage.kind {T E : Type} : ResultStorage T E → ResultKind
  | .ok _ => .ok
  | .err _ => .err

/-- `Result<T, E>`. -/
structure Result (T E : Type) where
  mStorage : ResultStorage T E
deriving DecidableEq

namespace Result

variable {T E : Type}

/-- `Result(Ok<T> value)`. -/
def ofOk (value : Ok T) : Result T E :=
  { mStorage := .ok value.value }

/-- `Result(Err<E> value)`. -/
def ofErr (value : Err E) : Result T E :=
  { mStorage := .err value.value }

/-- `is_ok()`. -/
def isOk (res : Result T E) : Bool :=
  res.mStorage.kind = .ok

/-- `is_err()`. -/
def isErr (res : Result T E) : Bool :=
  res.mStorage.kind = .err

/-- `err_unchecked()`; `none` where the object is no error. -/
def errUnchecked (res : Result T E) : Option E :=
  match res.mStorage with
  | .ok _ => none
  | .err e => some e

end Result

variable {E : Type}

/-- `make_success(val)`. -/
def makeSuccess {T : Type} (val : T) : Ok T :=
  { value := val }

/-- `make_error(val, msg, src_location)`. -/
def makeError (val : E) (msg : Text) (srcLocation : SourceLocation) : Err (ErrorType E) :=
  { value := .construct val (makeErrorMessage msg srcLocation) }

/-- `RETURN_ON_ERROR(res, fmt, args...)`: the value it returns with, or `none` when it falls
through. The macro builds its `ftl::error` with the default argument, so that it compiles where `E`
is `void_t` only. -/
def returnOnError {T : Type} (res : Result T (ErrorType E)) (fmt : Text) (args : List Text)
    (srcLocation : SourceLocation) : Option (Err (ErrorType E)) :=
  if res.isErr then
    res.errUnchecked.map fun e => { value := e.addMessage (format fmt args) srcLocation }
  else none

/-! ## Nested calls -/

/-- A function that calls another one and tests its result with `RETURN_ON_ERROR`. -/
structure Frame (E A B : Type) where
  fmt : Text
  args : List Text
  srcLocation : SourceLocation
  /-- What the function goes on to return when the call has succeeded. -/
  body : A → Result B (ErrorType E)

/-- The message that a frame adds to an error. -/
def Frame.context {A B : Type} (f : Frame E A B) : Text :=
  format f.fmt f.args

/-- What the function of the frame returns. -/
def Frame.call {A B : Type} (f : Frame E A B) (res : Result A (ErrorType E)) :
    Result B (ErrorType E) :=
  match returnOnError res f.fmt f.args f.srcLocation with
  | some err => .ofErr err
  | none =>
    match res.mStorage with
    | .ok val => f.body val
    | .err e => .ofErr { value := e }

/-- Nested calls, from the callee that returns an `A` to the caller that returns a `B`. -/
inductive Chain (E A : Type) : Type → Type 1 where
  | nil : Chain E A A
  | snoc {B C : Type} : Chain E A B → Frame E B C → Chain E A C

namespace Chain

variable {A B : Type}

/-- What the outermost function returns when the innermost returned `res`. -/
def run {B : Type} : Chain E A B → Result A (ErrorType E) → Result B (ErrorType E)
  | .nil, res => res
  | .snoc chain f, res => f.call (chain.run res)

/-- The contexts of the frames with their locations, innermost first. -/
def contexts {B : Type} : Chain E A B → List (Text × SourceLocation)
  | .nil => []
  | .snoc chain f => chain.contexts ++ [(f.context, f.srcLocation)]

end Chain

namespace ResultLemmas

theorem makeErrorMessage_eq (msg : Text) (l : SourceLocation) :
    makeErrorMessage msg l =
      msg ++ (" [".toList ++ (shownFileName l.fileName ++
        ("(".toList ++ (decimal l.line.toNat ++ ")]".toList)))) :=
  rfl

theorem not_mem_shownFileName {s : Text} {c : Char} (h : c ∉ s) : c ∉ shownFileName s := by
  unfold shownFileName
  split
  · exact TextLemmas.not_mem_substr h _
  · split
    · exact TextLemmas.not_mem_substr h _
    · exact h

/-- The location adds no character to a message that is neither a digit, nor in the file name, nor
one of the four that the format writes. -/
theorem not_mem_makeErrorMessage {msg : Text} {l : SourceLocation} {c : Char} (hmsg : c ∉ msg)
    (hfile : c ∉ l.fileName) (hdigit : c.isDigit = false) (hformat : c ∉ " [()]".toList) :
    c ∉ makeErrorMessage msg l := by
  rw [makeErrorMessage_eq]
  have hline : c ∉ decimal l.line.toNat := TextLemmas.not_mem_decimal hdigit _
  have hshown : c ∉ shownFileName l.fileName := not_mem_shownFileName hfile
  have hopen : " [".toList ⊆ " [()]".toList := by decide
  have hparen : "(".toList ⊆ " [()]".toList := by decide
  have hclose : ")]".toList ⊆ " [()]".toList := by decide
  simp only [List.mem_append, not_or]
  exact ⟨hmsg, fun hc => hformat (hopen hc), hshown, fun hc => hformat (hparen hc), hline,
    fun hc => hformat (hclose hc)⟩

/-- The loop of `join_messages` ends each message with a line end. -/
theorem joinLoop (messages : List Text) (tmp : Text) :
    messages.foldl (fun tmp s => (tmp ++ s) ++ ['\n']) tmp =
      tmp ++ messages.flatMap (· ++ ['\n']) := by
  induction messages generalizing tmp with
  | nil => exact (List.append_nil tmp).symm
  | cons s messages ih =>
    rw [List.foldl_cons, ih, List.flatMap_cons, List.append_assoc tmp, List.append_assoc tmp]

/-- Without the last one, the line ends separate the messages. -/
theorem dropLast_lines (s : Text) (messages : List Text) :
    ((s :: messages).flatMap (· ++ ['\n'])).dropLast =
      ['\n'].intercalate (s :: messages) := by
  induction messages generalizing s with
  | nil => simp
  | cons t messages ih =>
    have hne : (t :: messages).flatMap (· ++ ['\n']) ≠ [] := by simp
    rw [List.flatMap_cons, List.dropLast_append_of_ne_nil hne, ih, List.intercalate_cons_cons]

end ResultLemmas

open ResultLemmas

/-- `join_messages()` is the messages joined by single line ends. -/
theorem joinMessages_eq (e : ErrorType E) :
    e.joinMessages = ['\n'].intercalate e.mMessages := by
  unfold ErrorType.joinMessages
  rw [joinLoop]
  cases hmsgs : e.mMessages with
  | nil => rfl
  | cons s messages =>
    show (if List.isEmpty _ then _ else List.dropLast _) = _
    rw [List.nil_append, if_neg (by simp), dropLast_lines]

/-- Splitting the joined text gives the messages back when none has a line end of its own. -/
theorem splitOn_joinMessages (e : ErrorType E) (hne : e.mMessages ≠ [])
    (hline : ∀ s ∈ e.mMessages, '\n' ∉ s) : e.joinMessages.splitOn '\n' = e.mMessages := by
  rw [joinMessages_eq]
  exact List.splitOn_intercalate '\n' hline hne

/-- `make_error` starts the list of messages with its own message. -/
theorem makeError_messages (val : E) {msg : Text} (hnul : '\x00' ∉ msg) (l : SourceLocation) :
    (makeError val msg l).value =
      { mData := val, mMessages := [makeErrorMessage msg l] } := by
  have hwhole : '\x00' ∉ makeErrorMessage msg l :=
    not_mem_makeErrorMessage hnul l.fileName_noNul (by decide) (by decide)
  show ErrorType.construct val (makeErrorMessage msg l) = _
  unfold ErrorType.construct
  rw [TextLemmas.cstr_eq_self hwhole]

/-- One function passes an error on with its own context appended. -/
theorem Frame.call_err {A B : Type} (f : Frame E A B) (e : ErrorType E) :
    f.call { mStorage := .err e } =
      { mStorage := .err (e.addMessage f.context f.srcLocation) } :=
  rfl

namespace Chain

/-- A chain of calls passes an error on with the contexts appended, and nothing else changed. -/
theorem run_err {A B : Type} (chain : Chain E A B) (e : ErrorType E) :
    chain.run { mStorage := .err e } =
      { mStorage := .err { e with
          mMessages := e.mMessages ++ chain.contexts.map fun c => makeErrorMessage c.1 c.2 } } := by
  induction chain with
  | nil => simp [run, contexts]
  | snoc chain f ih =>
    show f.call (chain.run _) = _
    rw [ih, Frame.call_err]
    simp [ErrorType.addMessage, contexts]

end Chain

/-- An error that `make_error` raised reaches the outermost function with its value and with one
message for each place it passed, innermost first. -/
theorem error_chain {A B : Type} (chain : Chain E A B) (val : E) (msg : Text) (l : SourceLocation)
    (hnul : '\x00' ∉ msg) :
    ∃ e, chain.run (.ofErr (makeError val msg l)) = { mStorage := .err e } ∧
      e.mData = val ∧
      e.mMessages = ((msg, l) :: chain.contexts).map (fun c => makeErrorMessage c.1 c.2) ∧
      e.joinMessages = ['\n'].intercalate e.mMessages ∧
      ((∀ s ∈ e.mMessages, '\n' ∉ s) → e.joinMessages.splitOn '\n' = e.mMessages) := by
  have hrun : chain.run (.ofErr (makeError val msg l)) =
      { mStorage := .err
          { mData := val
            mMessages :=
              ((msg, l) :: chain.contexts).map fun c => makeErrorMessage c.1 c.2 } } := by
    show chain.run { mStorage := .err (makeError val msg l).value } = _
    rw [Chain.run_err, makeError_messages val hnul]
    rfl
  exact ⟨_, hrun, rfl, rfl, joinMessages_eq _, splitOn_joinMessages _ (by simp)⟩

/-- A function in `a/b.cpp` that calls one in `c.cpp`. -/
def exampleFrame : Frame Unit Unit Unit :=
  { fmt := "step {}".toList
    args := ["{x}".toList]
    srcLocation := { fileName := "a/b.cpp".toList, line := 7, fileName_noNul := by decide }
    body := fun val => .ofOk (makeSuccess val) }

/-- An empty message under one call whose context has braces. -/
theorem error_chain_braces :
    ∃ e, ((Chain.nil : Chain Unit Unit Unit).snoc exampleFrame).run
        (.ofErr (makeError () [] ⟨"c.cpp".toList, 3, by decide⟩)) = { mStorage := .err e } ∧
      e.mMessages = [" [c.cpp(3)]".toList, "step {x} [b.cpp(7)]".toList] ∧
      e.joinMessages.splitOn '\n' = e.mMessages := by
  obtain ⟨e, hrun, -, hmsgs, -, hsplit⟩ :=
    error_chain ((Chain.nil : Chain Unit Unit Unit).snoc exampleFrame) () []
      ⟨"c.cpp".toList, 3, by decide⟩ List.not_mem_nil
  have hshown : e.mMessages = [" [c.cpp(3)]".toList, "step {x} [b.cpp(7)]".toList] :=
    hmsgs.trans rfl
  refine ⟨e, hrun, hshown, hsplit ?_⟩
  rw [hshown]
  decide

end FlavoEngine.Core
