import FlavoEngine.Core.Result
import FlavoEngine.Lib.CString
import Mathlib.Data.List.DropRight

/-!
# What an error says

Two parts of the text of an error (`kernel/source/core/ftl/result.h`): the first message, which the
constructors of `error_type` take as `msg.data()`, and the file name in the bracket of every
message. A `string_view` is a stretch of a buffer; a C string that does not end in the buffer is not
read.

Results:
1. `first_message_iff`: the constructors record a view exactly when it ends where its C string does,
   and `make_error` keeps a message exactly when it has no NUL.
2. `file_name_iff`: the bracket shows the last component of the path exactly when no backslash
   follows the last slash of the path.
-/

namespace FlavoEngine.Core

open Text
open FlavoEngine.Lib

/-! ## The first message -/

variable {E U : Type}

namespace ErrorType

/-- The body of the constructors: `m_Messages.push_back(msg.data())`. -/
def withMessage (mData : E) (msg : View Char) : Option (ErrorType E) :=
  (msg.cString '\x00').map fun s => { mData, mMessages := [s] }

/-- `error_type(const E& val, string_view msg)`. -/
def constructCopy (val : E) (msg : View Char) : Option (ErrorType E) :=
  withMessage val msg

/-- `error_type(E&& val, string_view msg)`. -/
def constructMove (val : E) (msg : View Char) : Option (ErrorType E) :=
  withMessage val msg

/-- `error_type(const U& val, string_view msg)`, where a `U` initialises an `E`. -/
def constructFrom (toData : U → E) (val : U) (msg : View Char) : Option (ErrorType E) :=
  withMessage (toData val) msg

/-- `error_type(U&& val, string_view msg)`. -/
def constructFromMove (toData : U → E) (val : U) (msg : View Char) : Option (ErrorType E) :=
  withMessage (toData val) msg

/-- Every constructor records one message, the characters of the view. -/
structure RecordsView (toData : U → E) (val : E) (arg : U) (msg : View Char) : Prop where
  copy : constructCopy val msg = some { mData := val, mMessages := [msg.units] }
  move : constructMove val msg = some { mData := val, mMessages := [msg.units] }
  convert : constructFrom toData arg msg =
    some { mData := toData arg, mMessages := [msg.units] }
  convertMove : constructFromMove toData arg msg =
    some { mData := toData arg, mMessages := [msg.units] }

end ErrorType

open ErrorType

namespace ErrorTextLemmas

theorem withMessage_iff (val : E) (msg : View Char) :
    withMessage val msg = some { mData := val, mMessages := [msg.units] } ↔
      msg.Terminated '\x00' := by
  unfold withMessage
  rw [← View.cString_eq_units_iff, Option.map_eq_some_iff]
  constructor
  · rintro ⟨s, hs, heq⟩
    simp only [ErrorType.mk.injEq, List.cons.injEq, true_and, and_true] at heq
    rw [hs, heq]
  · intro hs
    exact ⟨msg.units, hs, rfl⟩

/-- A C string has no NUL. -/
theorem not_mem_cstr (s : Text) : '\x00' ∉ s.cstr :=
  View.not_mem_takeWhile s

/-- A message loses nothing as a C string exactly when the text it was formatted from has no NUL. -/
theorem cstr_makeErrorMessage_iff (msg : Text) (l : SourceLocation) :
    (makeErrorMessage msg l).cstr = makeErrorMessage msg l ↔ '\x00' ∉ msg := by
  constructor
  · intro heq hmem
    have hwhole : '\x00' ∈ makeErrorMessage msg l := by
      rw [ResultLemmas.makeErrorMessage_eq]
      exact List.mem_append_left _ hmem
    rw [← heq] at hwhole
    exact not_mem_cstr _ hwhole
  · intro hnul
    exact TextLemmas.cstr_eq_self (ResultLemmas.not_mem_makeErrorMessage hnul l.fileName_noNul
      (by decide) (by decide))

end ErrorTextLemmas

open ErrorTextLemmas

/-- The constructors record the characters of a view exactly when it is terminated, and the first
message of `make_error` is the formatted one exactly when the view has no NUL. A message that is
added is always the formatted one. -/
theorem first_message_iff (toData : U → E) (val : E) (arg : U) (msg : View Char)
    (l : SourceLocation) :
    (RecordsView toData val arg msg ↔ msg.Terminated '\x00') ∧
      ((makeError val msg.units l).value.mMessages.head? = some (makeErrorMessage msg.units l) ↔
        '\x00' ∉ msg.units) ∧
      ∀ e : ErrorType E,
        (e.addMessage msg.units l).mMessages = e.mMessages ++ [makeErrorMessage msg.units l] := by
  refine ⟨?_, ?_, fun _ => rfl⟩
  · constructor
    · exact fun hrecords => (withMessage_iff val msg).mp hrecords.copy
    · intro hterm
      have hval := (withMessage_iff val msg).mpr hterm
      have harg := (withMessage_iff (toData arg) msg).mpr hterm
      exact ⟨hval, hval, harg, harg⟩
  · rw [← cstr_makeErrorMessage_iff msg.units l]
    show some _ = some _ ↔ _
    rw [Option.some.injEq]

/-- The first five characters of a longer string. -/
def shortView : View Char where
  buffer := "retry later\x00".toList
  start := 0
  length := 5
  inside := by decide

/-- The message of a view goes on behind it, and a NUL cuts the location off. -/
theorem first_message_lost :
    (constructCopy () shortView).map (·.mMessages) = some ["retry later".toList] ∧
      shortView.units = "retry".toList ∧ ¬ RecordsView id () () shortView ∧
      (makeError () "a\x00b".toList ⟨"c.cpp".toList, 3, by decide⟩).value.mMessages =
        ["a".toList] := by
  refine ⟨by decide, by decide, fun hrecords => ?_, by decide⟩
  exact absurd hrecords.copy (by decide)

/-! ## The file name -/

/-- A separator of either kind. -/
def isSeparator (c : Char) : Bool :=
  c == '/' || c == '\\'

/-- What follows the last separator of a path, and the whole path when it has none. -/
def lastComponent (path : Text) : Text :=
  path.rtakeWhile fun c => !isSeparator c

/-- What follows the last slash of a path, and the whole path when it has none. -/
def afterLastSlash (path : Text) : Text :=
  path.rtakeWhile fun c => c != '/'

/-- A message with a file name and a line. -/
def located (msg name : Text) (line : UInt32) : Text :=
  format "{} [{}({})]".toList [msg, name, decimal line.toNat]

namespace ErrorTextLemmas

theorem rtakeWhile_append_cons {p : Char → Bool} {c : Char} (hc : p c = false) (pre post : Text) :
    (pre ++ c :: post).rtakeWhile p = post.rtakeWhile p := by
  unfold List.rtakeWhile
  rw [List.reverse_append, List.reverse_cons, List.append_assoc, List.takeWhile_append]
  split
  · next hall =>
    have hself := (List.takeWhile_prefix p).eq_of_length hall
    simp [hself, hc]
  · rfl

theorem lastComponent_eq_self {path : Text} :
    lastComponent path = path ↔ '/' ∉ path ∧ '\\' ∉ path := by
  unfold lastComponent isSeparator
  rw [List.rtakeWhile_eq_self_iff]
  constructor
  · intro hall
    exact ⟨fun hmem => by simpa using hall _ hmem, fun hmem => by simpa using hall _ hmem⟩
  · rintro ⟨hslash, hbackslash⟩ c hc
    have hne : c ≠ '/' := fun heq => hslash (heq ▸ hc)
    have hne' : c ≠ '\\' := fun heq => hbackslash (heq ▸ hc)
    simp [hne, hne']

theorem not_mem_lastComponent (path : Text) :
    '/' ∉ lastComponent path ∧ '\\' ∉ lastComponent path := by
  rw [← lastComponent_eq_self]
  exact List.rtakeWhile_idempotent _ path

/-- With a slash in the path, the backwards search for a backslash is not made. -/
theorem shownFileName_iff (path : Text) :
    shownFileName path = lastComponent path ↔
      ¬ ('/' ∈ path ∧ '\\' ∈ afterLastSlash path) := by
  unfold shownFileName
  split
  · next k hslash =>
    obtain ⟨pre, hpath⟩ := TextLemmas.rfind_split hslash
    have htail := TextLemmas.not_mem_afterLast hslash
    generalize path.substr (k + 1) = post at hpath htail
    subst hpath
    have hafter : afterLastSlash (pre ++ '/' :: post) = post := by
      unfold afterLastSlash
      rw [rtakeWhile_append_cons (by decide), List.rtakeWhile_eq_self_iff]
      exact fun c hc => bne_iff_ne.mpr fun heq => htail (heq ▸ hc)
    have hlast : lastComponent (pre ++ '/' :: post) = lastComponent post :=
      rtakeWhile_append_cons (by decide) pre post
    rw [hafter, hlast, eq_comm, lastComponent_eq_self]
    simp [htail]
  · next hslash =>
    have hnone := TextLemmas.rfind_eq_none hslash
    have hright : ¬ ('/' ∈ path ∧ '\\' ∈ afterLastSlash path) := fun h => hnone h.1
    refine iff_of_true ?_ hright
    split
    · next k hbackslash =>
      obtain ⟨pre, hpath⟩ := TextLemmas.rfind_split hbackslash
      have htail := TextLemmas.not_mem_afterLast hbackslash
      have hnotail := TextLemmas.not_mem_substr hnone (k + 1)
      generalize path.substr (k + 1) = post at hpath htail hnotail
      subst hpath
      have hlast : lastComponent (pre ++ '\\' :: post) = lastComponent post :=
        rtakeWhile_append_cons (by decide) pre post
      rw [hlast, lastComponent_eq_self.mpr ⟨hnotail, htail⟩]
    · next hbackslash =>
      exact (lastComponent_eq_self.mpr ⟨hnone, TextLemmas.rfind_eq_none hbackslash⟩).symm

/-- Two messages differ in nothing but the file name. -/
theorem located_inj {msg name name' : Text} {line : UInt32} :
    located msg name line = located msg name' line ↔ name = name' := by
  constructor
  · intro heq
    have heq' : msg ++ (" [".toList ++ (name ++ ("(".toList ++ (decimal line.toNat ++
        ")]".toList)))) = msg ++ (" [".toList ++ (name' ++ ("(".toList ++ (decimal line.toNat ++
        ")]".toList)))) := heq
    exact List.append_cancel_right (List.append_cancel_left (List.append_cancel_left heq'))
  · exact fun h => h ▸ rfl

end ErrorTextLemmas

/-- A message names the last component of the path, which has no separator, exactly when no
backslash follows the last slash of the path. -/
theorem file_name_iff (msg : Text) (l : SourceLocation) :
    (makeErrorMessage msg l = located msg (lastComponent l.fileName) l.line ∧
        '/' ∉ shownFileName l.fileName ∧ '\\' ∉ shownFileName l.fileName) ↔
      ¬ ('/' ∈ l.fileName ∧ '\\' ∈ afterLastSlash l.fileName) := by
  have hmsg : makeErrorMessage msg l = located msg (shownFileName l.fileName) l.line := rfl
  rw [hmsg, located_inj, ← shownFileName_iff, and_iff_left_iff_imp]
  intro heq
  rw [heq]
  exact not_mem_lastComponent l.fileName

/-- A path with a backslash behind its last slash. -/
def mixedPath : SourceLocation where
  fileName := "D:/flavo\\core\\result.cpp".toList
  line := 7
  fileName_noNul := by decide

/-- The bracket shows the directories behind the slash. -/
theorem file_name_mixed :
    makeErrorMessage "lost".toList mixedPath =
        "lost [flavo\\core\\result.cpp(7)]".toList ∧
      lastComponent mixedPath.fileName = "result.cpp".toList ∧
      makeErrorMessage "lost".toList mixedPath ≠
        located "lost".toList (lastComponent mixedPath.fileName) mixedPath.line := by
  decide

end FlavoEngine.Core
