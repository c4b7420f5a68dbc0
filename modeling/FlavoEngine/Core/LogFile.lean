import FlavoEngine.Core.Text
import FlavoEngine.Lib.Append
import FlavoEngine.Lib.Run

/-!
# The log file under concurrent logging

`LogEngine::LogInternal` (`kernel/source/core/logger/logger.cpp`) called by any number of threads.
Every call has a stream of its own on one file, opened in append mode, and holds `m_Lock` while it
inserts its record. The stream hands any part of the record to the file during the insertion and the
rest at `close()`, when the lock is released already.

* A thread has the list of the records it is still to log; a state is the threads, the lock and the
  text added to the file.
* The standard output and the debugger, which get a copy of each record, are left out.

Results:
1. `lock_exclusive`: insertions never overlap.
2. `log_file_integrity`: the file holds complete records when no text is handed over while another
   call's record is partly in the file.
3. `whole_meets_safe`, `closed_meets_safe`: that is so when every record goes to the file in one
   piece, and when no call takes the lock before the last one has closed its stream.
4. `torn_unless_safe`: otherwise some step puts text of one record behind a part of another.
5. `log_record_torn`: a record that is split around another one.
-/

namespace FlavoEngine.Core

open Text
open FlavoEngine.Lib

/-! ## Records -/

/-- What `LogInternal` puts together in a record. -/
structure LogRecord where
  dateTime : Text
  threadName : Text
  type : Text
  message : Text
deriving DecidableEq

/-- The text of the record, `str` in `LogInternal`. -/
def LogRecord.str (r : LogRecord) : Text :=
  format "{} [{}] [{}] {}\n".toList [r.dateTime, r.threadName, r.type, r.message]

/-! ## Calls in progress -/

/-- Where a thread is in `LogInternal`. -/
inductive CallPhase where
  /-- Outside. -/
  | idle
  /-- `is_open()`, before the lock. -/
  | opened (r : LogRecord)
  /-- The file could not be opened, before `close()`. -/
  | notOpen
  /-- `file_handle << str` under the lock; so many characters have been handed over. -/
  | inserting (r : LogRecord) (handed : Nat)
  /-- The lock is released, before `close()`. -/
  | inserted (r : LogRecord) (handed : Nat)
deriving DecidableEq

namespace CallPhase

/-- The part of a record that is in the file while its rest is not. -/
def part : CallPhase → Text
  | .inserting r n | .inserted r n => if n < r.str.length then r.str.take n else []
  | _ => []

/-- The record that is not in the file with its whole text. -/
def pending : CallPhase → List Text
  | .opened r => [r.str]
  | .inserting r n | .inserted r n => if n < r.str.length then [r.str] else []
  | _ => []

/-- What `close()` hands over. -/
def rest : CallPhase → Text
  | .inserting r n | .inserted r n => r.str.drop n
  | _ => []

def holdsLock : CallPhase → Bool
  | .inserting _ _ => true
  | _ => false

end CallPhase

structure LogState (Tid : Type) where
  todo : Tid → List LogRecord
  phase : Tid → CallPhase
  mLock : Option Tid
  /-- The text added to `m_FilePath`. -/
  file : Text

inductive LogLabel (Tid : Type) where
  /-- Begin with the next record and open the file. -/
  | call (t : Tid) (opens : Bool)
  | lock (t : Tid)
  /-- Hand `count` more characters to the file during the insertion. -/
  | handOver (t : Tid) (count : Nat)
  | unlock (t : Tid)
  /-- `close()` and return. -/
  | close (t : Tid)

namespace LogState

variable {Tid : Type} [DecidableEq Tid]

def init (logs : Tid → List LogRecord) : LogState Tid :=
  { todo := logs, phase := fun _ => .idle, mLock := none, file := [] }

def setPhase (s : LogState Tid) (t : Tid) (p : CallPhase) : LogState Tid :=
  { s with phase := Function.update s.phase t p }

/-- One step of `LogInternal`; `none` when the thread cannot take it. -/
def step (s : LogState Tid) : LogLabel Tid → Option (LogState Tid)
  | .call t opens =>
    match s.phase t, s.todo t with
    | .idle, r :: rs =>
      some ({ s with todo := Function.update s.todo t rs }.setPhase t
        (if opens then .opened r else .notOpen))
    | _, _ => none
  | .lock t =>
    match s.phase t, s.mLock with
    | .opened r, none => some ({ s with mLock := some t }.setPhase t (.inserting r 0))
    | _, _ => none
  | .handOver t count =>
    match s.phase t with
    | .inserting r n =>
      some ({ s with file := s.file ++ (r.str.drop n).take count }.setPhase t
        (.inserting r (n + count)))
    | _ => none
  | .unlock t =>
    match s.phase t with
    | .inserting r n => some ({ s with mLock := none }.setPhase t (.inserted r n))
    | _ => none
  | .close t =>
    match s.phase t with
    | .inserted r n => some ({ s with file := s.file ++ r.str.drop n }.setPhase t .idle)
    | .notOpen => some (s.setPhase t .idle)
    | _ => none

/-- The threads take steps in any order. -/
def Steps (s : LogState Tid) (l : LogLabel Tid) (s' : LogState Tid) : Prop :=
  s.step l = some s'

/-- All calls have returned. -/
def Returned (s : LogState Tid) : Prop :=
  ∀ t, s.phase t = .idle ∧ s.todo t = []

/-- The file is complete records one after another: those of all the logs, each once, and those of
one thread in the order it logged them. -/
def Integrity (logs : Tid → List LogRecord) (s : LogState Tid) : Prop :=
  ∃ order : List (Tid × Text), s.file = (order.map (·.2)).flatten ∧
    ∀ t, textsOf order t = (logs t).map LogRecord.str

/-- No call but the one of `t` has a record partly in the file. -/
def OthersWhole (s : LogState Tid) (t : Tid) : Prop :=
  ∀ u, u ≠ t → (s.phase u).part = []

/-- The file opens, and text is handed over only while no other record is partly in the file. -/
def SafeStep (s : LogState Tid) : LogLabel Tid → Prop
  | .call _ opens => opens = true
  | .handOver t count => (s.phase t).rest.take count = [] ∨ s.OthersWhole t
  | .close t => (s.phase t).rest = [] ∨ s.OthersWhole t
  | _ => True

/-- The file opens, and each record is handed over in one piece. -/
def WholeStep (s : LogState Tid) : LogLabel Tid → Prop
  | .call _ opens => opens = true
  | .handOver t count => count = 0 ∨ (s.phase t).rest.length ≤ count
  | _ => True

/-- The file opens, and the lock is taken only when all that was inserted is in the file, as it
would be with `close()` under the lock. -/
def ClosedStep (s : LogState Tid) : LogLabel Tid → Prop
  | .call _ opens => opens = true
  | .lock _ => ∀ u, (s.phase u).rest = []
  | _ => True

end LogState

open LogState

variable {Tid : Type} [DecidableEq Tid]

namespace LogFileLemmas

/-! What each step can do. -/

theorem step_call {s s' : LogState Tid} {t : Tid} {opens : Bool}
    (h : s.step (.call t opens) = some s') :
    ∃ r rs, s.phase t = .idle ∧ s.todo t = r :: rs ∧
      s' = { s with todo := Function.update s.todo t rs }.setPhase t
        (if opens then .opened r else .notOpen) := by
  simp only [LogState.step] at h
  split at h
  · next r rs hidle htodo => exact ⟨r, rs, hidle, htodo, (Option.some.inj h).symm⟩
  · cases h

theorem step_lock {s s' : LogState Tid} {t : Tid} (h : s.step (.lock t) = some s') :
    ∃ r, s.phase t = .opened r ∧ s.mLock = none ∧
      s' = { s with mLock := some t }.setPhase t (.inserting r 0) := by
  simp only [LogState.step] at h
  split at h
  · next r hopened hfree => exact ⟨r, hopened, hfree, (Option.some.inj h).symm⟩
  · cases h

theorem step_handOver {s s' : LogState Tid} {t : Tid} {count : Nat}
    (h : s.step (.handOver t count) = some s') :
    ∃ r n, s.phase t = .inserting r n ∧
      s' = { s with file := s.file ++ (r.str.drop n).take count }.setPhase t
        (.inserting r (n + count)) := by
  simp only [LogState.step] at h
  split at h
  · next r n hins => exact ⟨r, n, hins, (Option.some.inj h).symm⟩
  · cases h

theorem step_unlock {s s' : LogState Tid} {t : Tid} (h : s.step (.unlock t) = some s') :
    ∃ r n, s.phase t = .inserting r n ∧
      s' = { s with mLock := none }.setPhase t (.inserted r n) := by
  simp only [LogState.step] at h
  split at h
  · next r n hins => exact ⟨r, n, hins, (Option.some.inj h).symm⟩
  · cases h

theorem step_close {s s' : LogState Tid} {t : Tid} (h : s.step (.close t) = some s') :
    (∃ r n, s.phase t = .inserted r n ∧
      s' = { s with file := s.file ++ r.str.drop n }.setPhase t .idle) ∨
    (s.phase t = .notOpen ∧ s' = s.setPhase t .idle) := by
  simp only [LogState.step] at h
  split at h
  · next r n hins => exact .inl ⟨r, n, hins, (Option.some.inj h).symm⟩
  · next hnot => exact .inr ⟨hnot, (Option.some.inj h).symm⟩
  · cases h

/-! The record of a call. -/

theorem str_pos (r : LogRecord) : 0 < r.str.length := by
  show 0 < (r.dateTime ++ _).length
  rw [List.length_append]
  exact Nat.lt_of_lt_of_le (Nat.succ_pos _) (Nat.le_add_left _ _)

theorem part_update (phase : Tid → CallPhase) (t : Tid) (p : CallPhase) :
    (fun u => (Function.update phase t p u).part) =
      Function.update (fun u => (phase u).part) t p.part :=
  Function.comp_update CallPhase.part phase t p

theorem part_fresh (r : LogRecord) : (CallPhase.inserting r 0).part = [] := by
  simp [CallPhase.part]

theorem pending_fresh (r : LogRecord) : (CallPhase.inserting r 0).pending = [r.str] := by
  simp [CallPhase.pending, str_pos r]

/-- Handing over a piece of the record of `t`: the part of `t` grows, or the record is complete and
enters the order. -/
theorem handOver_spec {parts : Tid → Text} {order : List (Tid × Text)} {file : Text}
    (h : Appended parts order file) {t : Tid} {r : LogRecord} {n count : Nat}
    (hpart : parts t = (CallPhase.inserting r n).part)
    (hsafe : (r.str.drop n).take count = [] ∨ ∀ u, u ≠ t → parts u = []) :
    ∃ order', Appended (Function.update parts t (CallPhase.inserting r (n + count)).part) order'
        (file ++ (r.str.drop n).take count) ∧
      textsOf order' t ++ (CallPhase.inserting r (n + count)).pending =
        textsOf order t ++ (CallPhase.inserting r n).pending ∧
      ∀ u, u ≠ t → textsOf order' u = textsOf order u := by
  rcases Classical.em ((r.str.drop n).take count = []) with hnone | hsome
  · -- nothing is handed over: no count, or no rest
    have hsame : (CallPhase.inserting r (n + count)).part = (CallPhase.inserting r n).part ∧
        (CallPhase.inserting r (n + count)).pending = (CallPhase.inserting r n).pending := by
      rcases List.take_eq_nil_iff.mp hnone with rfl | hrest
      · exact ⟨rfl, rfl⟩
      · have hlen : r.str.length ≤ n := List.drop_eq_nil_iff.mp hrest
        have hmore : ¬ n + count < r.str.length := by omega
        simp [CallPhase.part, CallPhase.pending, Nat.not_lt.mpr hlen, hmore]
    refine ⟨order, ?_, by rw [hsame.2], fun _ _ => rfl⟩
    rw [hnone, List.append_nil, hsame.1, ← hpart, Function.update_eq_self]
    exact h
  · have hothers : ∀ u, u ≠ t → parts u = [] := hsafe.resolve_left hsome
    have hlen : n < r.str.length := by
      by_contra hge
      exact hsome (by rw [List.drop_eq_nil_of_le (Nat.not_lt.mp hge), List.take_nil])
    have hgrown : parts t ++ (r.str.drop n).take count = r.str.take (n + count) := by
      rw [hpart, List.take_add]
      simp [CallPhase.part, hlen]
    have hnext := h.extend hothers ((r.str.drop n).take count)
    rw [hgrown] at hnext
    rcases Nat.lt_or_ge (n + count) r.str.length with hmore | hdone
    · refine ⟨order, ?_, ?_, fun _ _ => rfl⟩
      · simpa [CallPhase.part, hmore] using hnext
      · simp [CallPhase.pending, hmore, hlen]
    · -- the record is complete
      have hstr : r.str.take (n + count) = r.str := List.take_of_length_le hdone
      have hfin := hnext.finish (w := t) fun u hu => by
        rw [Function.update_of_ne hu]
        exact hothers u hu
      rw [Function.update_self, Function.update_idem, hstr] at hfin
      refine ⟨order ++ [(t, r.str)], ?_, ?_, ?_⟩
      · simpa [CallPhase.part, Nat.not_lt.mpr hdone] using hfin
      · rw [textsOf_snoc_self]
        simp [CallPhase.pending, Nat.not_lt.mpr hdone, hlen]
      · intro u hu
        exact textsOf_snoc_of_ne order hu.symm r.str

/-- The invariant: the records that are complete in the file, the one in progress and those still
to come are the log of each thread. -/
def Accounted (logs : Tid → List LogRecord) (s : LogState Tid) : Prop :=
  ∃ order, Appended (fun t => (s.phase t).part) order s.file ∧
    ∀ t, textsOf order t ++ (s.phase t).pending ++ (s.todo t).map LogRecord.str =
      (logs t).map LogRecord.str

variable {logs : Tid → List LogRecord} {s s' : LogState Tid}

theorem accounted_init : Accounted logs (init logs) :=
  ⟨[], Appended.start, fun _ => rfl⟩

/-- A thread moves to a phase that has handed over as much, with the same records to come. -/
theorem accounted_setPhase (h : Accounted logs s) {t : Tid} {p : CallPhase}
    {todo : Tid → List LogRecord} {mLock : Option Tid} (hpart : p.part = (s.phase t).part)
    (hcome : p.pending ++ (todo t).map LogRecord.str =
      (s.phase t).pending ++ (s.todo t).map LogRecord.str)
    (hothers : ∀ u, u ≠ t → todo u = s.todo u) :
    Accounted logs ({ s with todo, mLock }.setPhase t p) := by
  obtain ⟨order, happ, hlogs⟩ := h
  refine ⟨order, ?_, fun u => ?_⟩
  · show Appended (fun u => (Function.update s.phase t p u).part) order s.file
    rw [part_update, hpart, Function.update_eq_self]
    exact happ
  · show textsOf order u ++ (Function.update s.phase t p u).pending ++
      (todo u).map LogRecord.str = _
    rcases eq_or_ne u t with rfl | hne
    · rw [Function.update_self, List.append_assoc, hcome, ← List.append_assoc]
      exact hlogs u
    · rw [Function.update_of_ne hne, hothers u hne]
      exact hlogs u

theorem accounted_call (h : Accounted logs s) {t : Tid} (hstep : s.step (.call t true) = some s') :
    Accounted logs s' := by
  obtain ⟨r, rs, hidle, htodo, rfl⟩ := step_call hstep
  refine accounted_setPhase h ?_ ?_ fun u hu => Function.update_of_ne hu _ _
  · rw [hidle]
    rfl
  · rw [hidle, htodo, Function.update_self]
    rfl

theorem accounted_lock (h : Accounted logs s) {t : Tid} (hstep : s.step (.lock t) = some s') :
    Accounted logs s' := by
  obtain ⟨r, hopened, -, rfl⟩ := step_lock hstep
  refine accounted_setPhase h ?_ ?_ fun _ _ => rfl
  · rw [hopened, part_fresh]
    rfl
  · rw [hopened, pending_fresh]
    rfl

theorem accounted_unlock (h : Accounted logs s) {t : Tid} (hstep : s.step (.unlock t) = some s') :
    Accounted logs s' := by
  obtain ⟨r, n, hins, rfl⟩ := step_unlock hstep
  refine accounted_setPhase h ?_ ?_ fun _ _ => rfl
  · rw [hins]
    rfl
  · rw [hins]
    rfl

/-- A call hands over a piece and goes on in a phase that accounts for it. -/
theorem accounted_handOver (h : Accounted logs s) {t : Tid} {r : LogRecord} {n count : Nat}
    {p : CallPhase} (hpart : (s.phase t).part = (CallPhase.inserting r n).part)
    (hpend : (s.phase t).pending = (CallPhase.inserting r n).pending)
    (hpart' : p.part = (CallPhase.inserting r (n + count)).part)
    (hpend' : p.pending = (CallPhase.inserting r (n + count)).pending)
    (hsafe : (r.str.drop n).take count = [] ∨ s.OthersWhole t) :
    Accounted logs ({ s with file := s.file ++ (r.str.drop n).take count }.setPhase t p) := by
  obtain ⟨order, happ, hlogs⟩ := h
  obtain ⟨order', happ', hself, hothers⟩ := handOver_spec happ (t := t) hpart hsafe
  refine ⟨order', ?_, fun u => ?_⟩
  · show Appended (fun u => (Function.update s.phase t p u).part) order' _
    rw [part_update, hpart']
    exact happ'
  · show textsOf order' u ++ (Function.update s.phase t p u).pending ++ _ = _
    rcases eq_or_ne u t with rfl | hne
    · rw [Function.update_self, hpend', hself, ← hpend]
      exact hlogs u
    · rw [Function.update_of_ne hne, hothers u hne]
      exact hlogs u

theorem accounted_insert (h : Accounted logs s) {t : Tid} {count : Nat}
    (hsafe : s.SafeStep (.handOver t count)) (hstep : s.step (.handOver t count) = some s') :
    Accounted logs s' := by
  obtain ⟨r, n, hins, rfl⟩ := step_handOver hstep
  have hpiece : (s.phase t).rest.take count = [] ∨ s.OthersWhole t := hsafe
  rw [hins] at hpiece
  exact accounted_handOver h (by rw [hins]) (by rw [hins]) rfl rfl hpiece

theorem accounted_close (h : Accounted logs s) {t : Tid} (hsafe : s.SafeStep (.close t))
    (hstep : s.step (.close t) = some s') : Accounted logs s' := by
  rcases step_close hstep with ⟨r, n, hins, rfl⟩ | ⟨hnot, rfl⟩
  · have hpiece : (s.phase t).rest = [] ∨ s.OthersWhole t := hsafe
    rw [hins] at hpiece
    -- `close()` is a hand-over of as many characters as the whole record has
    have hall : (r.str.drop n).take r.str.length = r.str.drop n :=
      List.take_of_length_le (by simp)
    have hdone : ¬ n + r.str.length < r.str.length := by omega
    rw [← hall]
    refine accounted_handOver h (by rw [hins]; rfl) (by rw [hins]; rfl) ?_ ?_
      (by rw [hall]; exact hpiece)
    · simp [CallPhase.part, hdone]
    · simp [CallPhase.pending, hdone]
  · refine accounted_setPhase h ?_ ?_ fun _ _ => rfl
    · rw [hnot]
      rfl
    · rw [hnot]
      rfl

theorem accounted_step {l : LogLabel Tid} (h : Accounted logs s) (hsafe : s.SafeStep l)
    (hstep : s.Steps l s') : Accounted logs s' := by
  cases l with
  | call t opens =>
    cases hsafe
    exact accounted_call h hstep
  | lock t => exact accounted_lock h hstep
  | handOver t count => exact accounted_insert h hsafe hstep
  | unlock t => exact accounted_unlock h hstep
  | close t => exact accounted_close h hsafe hstep

/-- With no call in progress, the complete records are all there is. -/
theorem integrity_of_accounted (h : Accounted logs s) (hret : s.Returned) : s.Integrity logs := by
  obtain ⟨order, happ, hlogs⟩ := h
  refine ⟨order, happ.flatten_eq fun t => ?_, fun t => ?_⟩
  · show (s.phase t).part = []
    rw [(hret t).1]
    rfl
  · rw [← hlogs t, (hret t).1, (hret t).2]
    exact (List.append_nil _).symm.trans (List.append_nil _).symm

/-! The lock. -/

/-- A thread inserts exactly when it holds the lock. -/
def LockHeld (s : LogState Tid) : Prop :=
  ∀ t, (s.phase t).holdsLock = true ↔ s.mLock = some t

/-- A thread that neither takes nor holds the lock may change its phase and records. -/
theorem lockHeld_setPhase (h : LockHeld s) {t : Tid} {p : CallPhase} {todo : Tid → List LogRecord}
    {file : Text} (hlock : p.holdsLock = (s.phase t).holdsLock) :
    LockHeld ({ s with todo, file }.setPhase t p) := by
  intro u
  show (Function.update s.phase t p u).holdsLock = true ↔ _
  rcases eq_or_ne u t with rfl | hne
  · rw [Function.update_self, hlock]
    exact h u
  · rw [Function.update_of_ne hne]
    exact h u

theorem lockHeld_step {l : LogLabel Tid} (h : LockHeld s) (hstep : s.Steps l s') :
    LockHeld s' := by
  cases l with
  | call t opens =>
    obtain ⟨r, rs, hidle, -, rfl⟩ := step_call hstep
    refine lockHeld_setPhase h ?_
    rw [hidle]
    cases opens <;> rfl
  | lock t =>
    obtain ⟨r, -, hfree, rfl⟩ := step_lock hstep
    intro u
    show (Function.update s.phase t _ u).holdsLock = true ↔ some t = some u
    rcases eq_or_ne u t with rfl | hne
    · simp [CallPhase.holdsLock]
    · rw [Function.update_of_ne hne, h u, hfree]
      simp [hne.symm]
  | handOver t count =>
    obtain ⟨r, n, hins, rfl⟩ := step_handOver hstep
    refine lockHeld_setPhase h ?_
    rw [hins]
    rfl
  | unlock t =>
    obtain ⟨r, n, hins, rfl⟩ := step_unlock hstep
    have hheld : s.mLock = some t := (h t).mp (by rw [hins]; rfl)
    intro u
    show (Function.update s.phase t _ u).holdsLock = true ↔ none = some u
    rcases eq_or_ne u t with rfl | hne
    · simp [CallPhase.holdsLock]
    · rw [Function.update_of_ne hne, h u, hheld]
      simp [hne.symm]
  | close t =>
    rcases step_close hstep with ⟨r, n, hins, rfl⟩ | ⟨hnot, rfl⟩
    · refine lockHeld_setPhase h ?_
      rw [hins]
      rfl
    · refine lockHeld_setPhase h ?_
      rw [hnot]
      rfl

/-! Records in one piece. -/

/-- No record is partly in the file. -/
def NoPart (s : LogState Tid) : Prop :=
  ∀ t, (s.phase t).part = []

theorem noPart_setPhase (h : NoPart s) {t : Tid} {p : CallPhase} {todo : Tid → List LogRecord}
    {mLock : Option Tid} {file : Text} (hpart : p.part = []) :
    NoPart ({ s with todo, mLock, file }.setPhase t p) := by
  intro u
  show (Function.update s.phase t p u).part = []
  rcases eq_or_ne u t with rfl | hne
  · rw [Function.update_self, hpart]
  · rw [Function.update_of_ne hne]
    exact h u

theorem noPart_step {l : LogLabel Tid} (h : NoPart s) (hwhole : s.WholeStep l)
    (hstep : s.Steps l s') : NoPart s' := by
  cases l with
  | call t opens =>
    obtain ⟨r, rs, -, -, rfl⟩ := step_call hstep
    refine noPart_setPhase h ?_
    cases opens <;> rfl
  | lock t =>
    obtain ⟨r, -, -, rfl⟩ := step_lock hstep
    exact noPart_setPhase h (part_fresh r)
  | handOver t count =>
    obtain ⟨r, n, hins, rfl⟩ := step_handOver hstep
    have hbefore : (CallPhase.inserting r n).part = [] := hins ▸ h t
    have hcount : count = 0 ∨ (s.phase t).rest.length ≤ count := hwhole
    rw [hins] at hcount
    refine noPart_setPhase h ?_
    rcases hcount with rfl | hall
    · exact hbefore
    · have hlen : (r.str.drop n).length ≤ count := hall
      rw [List.length_drop] at hlen
      have hdone : ¬ n + count < r.str.length := by omega
      simp [CallPhase.part, hdone]
  | unlock t =>
    obtain ⟨r, n, hins, rfl⟩ := step_unlock hstep
    exact noPart_setPhase h (hins ▸ h t : (CallPhase.inserting r n).part = [])
  | close t =>
    rcases step_close hstep with ⟨r, n, -, rfl⟩ | ⟨-, rfl⟩
    · exact noPart_setPhase h rfl
    · exact noPart_setPhase h rfl

/-! Records closed before the next one. -/

theorem part_of_rest {p : CallPhase} (h : p.rest = []) : p.part = [] := by
  cases p with
  | inserting r n | inserted r n =>
    have hlen : r.str.length ≤ n := List.drop_eq_nil_iff.mp h
    simp [CallPhase.part, Nat.not_lt.mpr hlen]
  | _ => rfl

/-- At most one call has text that is still to go to the file. -/
def OneRest (s : LogState Tid) : Prop :=
  ∀ t, (s.phase t).rest ≠ [] → ∀ u, u ≠ t → (s.phase u).rest = []

theorem oneRest_setPhase (h : OneRest s) {t : Tid} {p : CallPhase} {todo : Tid → List LogRecord}
    {mLock : Option Tid} {file : Text}
    (hothers : p.rest ≠ [] → ∀ u, u ≠ t → (s.phase u).rest = []) :
    OneRest ({ s with todo, mLock, file }.setPhase t p) := by
  intro v hv u hne
  show (Function.update s.phase t p u).rest = []
  replace hv : (Function.update s.phase t p v).rest ≠ [] := hv
  rcases eq_or_ne v t with rfl | hvt
  · rw [Function.update_self] at hv
    rw [Function.update_of_ne hne]
    exact hothers hv u hne
  · rw [Function.update_of_ne hvt] at hv
    rcases eq_or_ne u t with rfl | hut
    · rw [Function.update_self]
      by_contra hp
      exact hv (hothers hp v hvt)
    · rw [Function.update_of_ne hut]
      exact h v hv u hne

theorem oneRest_step {l : LogLabel Tid} (h : OneRest s) (hclosed : s.ClosedStep l)
    (hstep : s.Steps l s') : OneRest s' := by
  cases l with
  | call t opens =>
    obtain ⟨r, rs, -, -, rfl⟩ := step_call hstep
    refine oneRest_setPhase h fun hp => absurd ?_ hp
    cases opens <;> rfl
  | lock t =>
    obtain ⟨r, -, -, rfl⟩ := step_lock hstep
    exact oneRest_setPhase h fun _ u _ => hclosed u
  | handOver t count =>
    obtain ⟨r, n, hins, rfl⟩ := step_handOver hstep
    refine oneRest_setPhase h fun hp => h t ?_
    -- what is left after the piece was left before it
    rw [hins]
    intro hnone
    have hlen : r.str.length ≤ n := List.drop_eq_nil_iff.mp hnone
    exact hp (List.drop_eq_nil_of_le (Nat.le_add_right_of_le hlen))
  | unlock t =>
    obtain ⟨r, n, hins, rfl⟩ := step_unlock hstep
    exact oneRest_setPhase h fun hp => h t (by rw [hins]; exact hp)
  | close t =>
    rcases step_close hstep with ⟨r, n, -, rfl⟩ | ⟨-, rfl⟩
    · exact oneRest_setPhase h fun hp => absurd rfl hp
    · exact oneRest_setPhase h fun hp => absurd rfl hp

/-! Steps that are not safe. -/

/-- What follows a part of another record in the file. -/
theorem behind_part (h : Accounted logs s) {t : Tid} (hothers : ¬ s.OthersWhole t) :
    ∃ (u : Tid) (order : List (Tid × Text)), u ≠ t ∧ (s.phase u).part ≠ [] ∧
      s.file = (order.map (·.2)).flatten ++ (s.phase u).part := by
  obtain ⟨order, happ, -⟩ := h
  simp only [OthersWhole, not_forall] at hothers
  obtain ⟨u, hne, hpart⟩ := hothers
  exact ⟨u, order, hne, hpart, happ.at_part hpart⟩

end LogFileLemmas

open LogFileLemmas

/-- `m_Lock` does its part: no two threads insert at the same time. -/
theorem lock_exclusive {logs : Tid → List LogRecord}
    {tr : List (LogState Tid × LogLabel Tid × LogState Tid)} {s : LogState Tid}
    (hrun : Run Steps (init logs) tr s) {t u : Tid} (ht : (s.phase t).holdsLock = true)
    (hu : (s.phase u).holdsLock = true) : t = u := by
  have hheld : LockHeld s :=
    hrun.inv_all (fun _ => by simp [init, CallPhase.holdsLock]) lockHeld_step
  exact Option.some.inj (((hheld t).mp ht).symm.trans ((hheld u).mp hu))

/-- A run whose records go to the file in one piece each, whether at the insertion or at `close()`,
hands over nothing while a record is partly in the file. -/
theorem whole_meets_safe {logs : Tid → List LogRecord}
    {tr : List (LogState Tid × LogLabel Tid × LogState Tid)} {s : LogState Tid}
    (hrun : Run Steps (init logs) tr s) (hwhole : Meets WholeStep tr) : Meets SafeStep tr := by
  rintro ⟨s₁, l, s₂⟩ ht
  have hnone : NoPart s₁ :=
    (hrun.inv_mem (I := NoPart) (C := WholeStep) (fun _ => rfl) noPart_step hwhole ht).1
  cases l with
  | call t opens => exact hwhole _ ht
  | lock t => trivial
  | handOver t count => exact .inr fun u _ => hnone u
  | unlock t => trivial
  | close t => exact .inr fun u _ => hnone u

/-- So does a run in which no call takes the lock between another's insertion and its `close()`. -/
theorem closed_meets_safe {logs : Tid → List LogRecord}
    {tr : List (LogState Tid × LogLabel Tid × LogState Tid)} {s : LogState Tid}
    (hrun : Run Steps (init logs) tr s) (hclosed : Meets ClosedStep tr) : Meets SafeStep tr := by
  rintro ⟨s₁, l, s₂⟩ ht
  have hone : OneRest s₁ :=
    (hrun.inv_mem (I := OneRest) (C := ClosedStep) (fun _ h => absurd rfl h) oneRest_step
      hclosed ht).1
  have hothers : ∀ t, (s₁.phase t).rest = [] ∨ s₁.OthersWhole t := by
    intro t
    rcases Classical.em ((s₁.phase t).rest = []) with hnone | hrest
    · exact .inl hnone
    · exact .inr fun u hne => part_of_rest (hone t hrest u hne)
  cases l with
  | call t opens => exact hclosed _ ht
  | lock t => trivial
  | handOver t count => exact (hothers t).imp_left fun hnone => by rw [hnone, List.take_nil]
  | unlock t => trivial
  | close t => exact hothers t

/-- The first step of a run that is not safe fails to open the file, or hands over text of one
record right behind a part of another. -/
theorem torn_unless_safe {logs : Tid → List LogRecord}
    {tr : List (LogState Tid × LogLabel Tid × LogState Tid)} {s s' : LogState Tid}
    {l : LogLabel Tid} (hrun : Run Steps (init logs) tr s) (hsafe : Meets SafeStep tr)
    (hstep : s.Steps l s') (hmiss : ¬ s.SafeStep l) :
    (∃ t, l = .call t false) ∨
      ∃ (t u : Tid) (order : List (Tid × Text)) (piece : Text), u ≠ t ∧
        (s.phase u).part ≠ [] ∧ piece ≠ [] ∧ piece <+: (s.phase t).rest ∧
        s'.file = (order.map (·.2)).flatten ++ (s.phase u).part ++ piece := by
  have hacc : Accounted logs s := hrun.inv accounted_init accounted_step hsafe
  cases l with
  | call t opens =>
    have hfails : opens = false := Bool.not_eq_true opens |>.mp hmiss
    exact .inl ⟨t, by rw [hfails]⟩
  | lock t => exact absurd trivial hmiss
  | handOver t count =>
    obtain ⟨hpiece, hothers⟩ := not_or.mp hmiss
    obtain ⟨u, order, hne, hpart, hfile⟩ := behind_part hacc hothers
    obtain ⟨r, n, hins, rfl⟩ := step_handOver hstep
    have hrest : (s.phase t).rest = r.str.drop n := congrArg CallPhase.rest hins
    rw [hrest] at hpiece
    exact .inr ⟨t, u, order, _, hne, hpart, hpiece, hrest ▸ List.take_prefix count _,
      by rw [← hfile]; rfl⟩
  | unlock t => exact absurd trivial hmiss
  | close t =>
    obtain ⟨hpiece, hothers⟩ := not_or.mp hmiss
    obtain ⟨u, order, hne, hpart, hfile⟩ := behind_part hacc hothers
    rcases step_close hstep with ⟨r, n, hins, rfl⟩ | ⟨hnot, -⟩
    · have hrest : (s.phase t).rest = r.str.drop n := congrArg CallPhase.rest hins
      rw [hrest] at hpiece
      exact .inr ⟨t, u, order, _, hne, hpart, hpiece, hrest ▸ List.prefix_rfl, by rw [← hfile]; rfl⟩
    · rw [hnot] at hpiece
      exact absurd rfl hpiece

/-- In a run in which the file opens and every hand-over is safe, the file holds the records of all
calls, complete and in the order of each thread, once all calls have returned. -/
theorem log_file_integrity (logs : Tid → List LogRecord)
    {tr : List (LogState Tid × LogLabel Tid × LogState Tid)} {s : LogState Tid}
    (hrun : Run Steps (init logs) tr s) (hsafe : Meets SafeStep tr) (hret : s.Returned) :
    s.Integrity logs :=
  integrity_of_accounted (hrun.inv accounted_init accounted_step hsafe) hret

/-! ## Two threads with one record each -/

def shortRecord (message : Text) : LogRecord :=
  { dateTime := [], threadName := [], type := [], message }

def twoLogs (t : Bool) : List LogRecord :=
  if t then [shortRecord ['b']] else [shortRecord ['a']]

/-- The first record goes to the file in two pieces, and the second between them. -/
def tornSchedule : List (LogLabel Bool) :=
  [.call false true, .lock false, .handOver false 3, .unlock false,
   .call true true, .lock true, .unlock true, .close true, .close false]

/-- Both records reach the file at `close()`. -/
def bufferedSchedule : List (LogLabel Bool) :=
  [.call false true, .call true true, .lock true, .unlock true, .lock false, .unlock false,
   .close false, .close true]

instance (s : LogState Tid) : DecidablePred s.WholeStep
  | .call _ opens => inferInstanceAs (Decidable (opens = true))
  | .handOver t count =>
    inferInstanceAs (Decidable (count = 0 ∨ (s.phase t).rest.length ≤ count))
  | .lock _ | .unlock _ | .close _ => inferInstanceAs (Decidable True)

/-- What is read of a run of two threads: whether the file opened and the records were handed over
in one piece, how the threads ended and what is in the file. -/
def view (r : List (LogState Bool × LogLabel Bool × LogState Bool) × LogState Bool) :
    Bool × List (CallPhase × List LogRecord) × Text :=
  (r.1.all fun t => decide (t.1.WholeStep t.2.1),
   [(r.2.phase false, r.2.todo false), (r.2.phase true, r.2.todo true)], r.2.file)

theorem returned_of_view {r : List (LogState Bool × LogLabel Bool × LogState Bool) × LogState Bool}
    {whole : Bool} {file : Text} (h : view r = (whole, [(.idle, []), (.idle, [])], file)) :
    r.2.Returned := by
  simp only [view, Prod.mk.injEq, List.cons.injEq, and_true] at h
  obtain ⟨-, ⟨hfalse, htrue⟩, -⟩ := h
  intro t
  cases t with
  | false => exact hfalse
  | true => exact htrue

/-- Both records are complete in the file of the buffered run. -/
theorem log_file_integrity_buffered :
    ∃ tr s, Run Steps (init twoLogs) tr s ∧ s.Returned ∧ s.Integrity twoLogs := by
  obtain ⟨tr, s, hrun, -, hview⟩ := exists_run LogState.step (R := Steps) id (init twoLogs)
    bufferedSchedule view rfl
  have hret : s.Returned := returned_of_view hview
  have hwhole : Meets WholeStep tr := meets_of_all (congrArg Prod.fst hview)
  exact ⟨tr, s, hrun, hret, log_file_integrity twoLogs hrun (whole_meets_safe hrun hwhole) hret⟩

/-- The first three characters of the first record, the second record, the rest of the first: the
file begins with no record of the log. -/
theorem log_record_torn :
    ¬ ∀ (logs : Bool → List LogRecord) tr s, Run Steps (init logs) tr s →
      (∀ t ∈ tr, ∀ u opens, t.2.1 = .call u opens → opens = true) → s.Returned →
      s.Integrity logs := by
  intro hall
  obtain ⟨tr, s, hrun, hlabels, hview⟩ := exists_run LogState.step (R := Steps) id (init twoLogs)
    tornSchedule view rfl
  have hfile : s.file = _ := congrArg (·.2.2) hview
  have hopens : ∀ t ∈ tr, ∀ u opens, t.2.1 = .call u opens → opens = true := by
    intro t ht u opens hcall
    have hmem : LogLabel.call u opens ∈ tornSchedule :=
      hlabels ▸ hcall ▸ List.mem_map_of_mem (f := fun t => t.2.1) ht
    simp only [tornSchedule, List.mem_cons, LogLabel.call.injEq, reduceCtorEq, List.not_mem_nil,
      or_false, false_or] at hmem
    rcases hmem with ⟨-, hopen⟩ | ⟨-, hopen⟩
    · exact hopen
    · exact hopen
  obtain ⟨order, horder, hlogs⟩ := hall twoLogs tr s hrun hopens
    (returned_of_view hview)
  rw [hfile] at horder
  cases order with
  | nil => cases horder
  | cons e order =>
    -- the file begins with the first text of the order, which is a record of its thread
    have hmem : e.2 ∈ (twoLogs e.1).map LogRecord.str := by
      rw [← hlogs e.1]
      simp [textsOf]
    have hprefix : e.2 <+: _ := ⟨_, horder.symm⟩
    cases he : e.1 with
    | false =>
      rw [he] at hmem
      rw [List.mem_singleton.mp hmem] at hprefix
      revert hprefix
      decide
    | true =>
      rw [he] at hmem
      rw [List.mem_singleton.mp hmem] at hprefix
      revert hprefix
      decide

end FlavoEngine.Core
