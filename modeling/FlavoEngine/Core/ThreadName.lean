import FlavoEngine.Core.LogFile

/-!
# Thread names in log records

`ThreadNameManager` (`kernel/source/core/parallel/thread_name.cpp`), the two callbacks that register
and unregister a thread (`wh/source/main.cpp`), and the part of `LogEngine::LogInternal` that looks
the name of the calling thread up. `GetName` returns a view of the name that is in the table, and
the record is put together from that view in a later step.

* A view is the buffer it points into, or a literal. Reading a buffer that is in the table no more
  gives nothing.
* A thread gets its id from the operating system, which gives the id of a live thread to no other,
  and gives the id of an ended one to any. A new buffer is none of those in use.
* A thread takes its steps one after another: a callback runs between its log calls.
* Besides the main thread and the threads of the executors there may be threads that run neither
  callback. They log, and exit.

Results:
1. `consistent_step`: each step keeps the table, the threads and the views in progress together.
2. `log_attribution`: the table has one entry for each thread between its callbacks, and a record
   has the name that its own thread was started with.
-/

namespace FlavoEngine.Core

open Text
open FlavoEngine.Lib

/-! ## The table -/

/-- An entry of `m_Names`: the buffer holds the characters of the name. -/
structure NameEntry (Id : Type) where
  key : Id
  name : Text
  buf : Nat
deriving DecidableEq

/-- The `string_view` that `GetName` returns. -/
inductive NameView where
  | buffer (buf : Nat)
  | literal (text : Text)
deriving DecidableEq

/-- `m_Names`. -/
abbrev Names (Id : Type) := List (NameEntry Id)

namespace Names

variable {Id : Type} [DecidableEq Id]

/-- The entries with a key. -/
def withKey (names : Names Id) (id : Id) : Names Id :=
  names.filter fun e => e.key = id

/-- `RegisterThread(id, name)`: `m_Names[id] = name`. The string that is assigned to has its
characters in `buf` afterwards. -/
def registerThread (names : Names Id) (id : Id) (name : Text) (buf : Nat) : Names Id :=
  if names.withKey id = [] then names ++ [{ key := id, name, buf }]
  else names.map fun e => if e.key = id then { e with name, buf } else e

/-- `UnregisterThread(id)`. -/
def unregisterThread (names : Names Id) (id : Id) : Names Id :=
  names.filter fun e => e.key ≠ id

/-- What `GetName` answers for a thread that is not registered. -/
def unknownName : Text :=
  "<Unknown>".toList

/-- `GetName(id)`. -/
def getName (names : Names Id) (id : Id) : NameView :=
  match names.find? fun e => e.key = id with
  | some it => .buffer it.buf
  | none => .literal unknownName

/-- The characters that a view has now; `none` when its buffer is gone. -/
def read (names : Names Id) : NameView → Option Text
  | .buffer buf => (names.find? fun e => e.buf = buf).map (·.name)
  | .literal text => some text

end Names

/-! ## Threads -/

/-- Where a thread is in its life. -/
inductive ThreadPhase (Id : Type) where
  | notStarted
  /-- Before its start callback. -/
  | created (id : Id) (name : Text)
  /-- Between its callbacks. -/
  | running (id : Id) (name : Text)
  /-- After its end callback. -/
  | ended (id : Id) (name : Text)
  | exited
deriving DecidableEq

/-- The id of a live thread. -/
def ThreadPhase.id? {Id : Type} : ThreadPhase Id → Option Id
  | .created id _ | .running id _ | .ended id _ => some id
  | .notStarted | .exited => none

structure ThreadState (H Id : Type) where
  mNames : Names Id
  phase : H → ThreadPhase Id
  /-- The ids that the operating system has given to live threads. -/
  liveIds : List Id
  /-- The view that a log call of the thread holds. -/
  view : H → Option NameView
  records : List (H × LogRecord)

inductive ThreadLabel (H Id : Type) where
  /-- A thread starts, with the name it passes to its callbacks. -/
  | create (h : H) (id : Id) (name : Text)
  /-- `ThreadStartedCallback`. -/
  | started (h : H) (buf : Nat)
  /-- `ThreadEndedCallback`. -/
  | ended (h : H)
  | exit (h : H)
  /-- `GetName` in a log call. -/
  | getName (h : H)
  /-- The record of the log call is put together. -/
  | makeRecord (h : H) (dateTime type message : Text)

/-- `FLAVO_MAIN_THREAD_NAME`. -/
def mainThreadName : Text :=
  "Main Thread".toList

namespace ThreadState

variable {H Id : Type} [DecidableEq H] [DecidableEq Id]

def setPhase (s : ThreadState H Id) (h : H) (p : ThreadPhase Id) : ThreadState H Id :=
  { s with phase := Function.update s.phase h p }

/-- Before any thread. -/
def empty : ThreadState H Id :=
  { mNames := []
    phase := fun _ => .notStarted
    liveIds := []
    view := fun _ => none
    records := [] }

/-- `WinMain` has registered the main thread. -/
def init (main : H) (id : Id) (buf : Nat) : ThreadState H Id :=
  { empty with
    mNames := Names.registerThread [] id mainThreadName buf
    liveIds := [id] }.setPhase main (.running id mainThreadName)

/-- One step of a thread; `none` when it cannot be taken. -/
def step (main : H) (s : ThreadState H Id) : ThreadLabel H Id → Option (ThreadState H Id)
  | .create h id name =>
    match s.phase h with
    | .notStarted =>
      if id ∈ s.liveIds then none
      else some ({ s with liveIds := id :: s.liveIds }.setPhase h (.created id name))
    | _ => none
  | .started h buf =>
    match s.phase h, s.view h with
    | .created id name, none =>
      if s.mNames.any fun e => e.buf = buf then none
      else some ({ s with mNames := s.mNames.registerThread id name buf }.setPhase h
        (.running id name))
    | _, _ => none
  | .ended h =>
    match s.phase h, s.view h with
    | .running id name, none =>
      if h = main then none
      else some ({ s with mNames := s.mNames.unregisterThread id }.setPhase h (.ended id name))
    | _, _ => none
  | .exit h =>
    match s.phase h, s.view h with
    | .created id _, none | .ended id _, none =>
      some ({ s with liveIds := s.liveIds.filter (· ≠ id) }.setPhase h .exited)
    | _, _ => none
  | .getName h =>
    match (s.phase h).id?, s.view h with
    | some id, none =>
      some { s with view := Function.update s.view h (some (s.mNames.getName id)) }
    | _, _ => none
  | .makeRecord h dateTime type message =>
    match s.view h with
    | some threadName =>
      some { s with
        view := Function.update s.view h none
        records := s.records ++
          [(h, { dateTime, threadName := (s.mNames.read threadName).getD [], type, message })] }
    | none => none

/-- The threads take steps in any order. -/
def Steps (main : H) (s : ThreadState H Id) (l : ThreadLabel H Id) (s' : ThreadState H Id) : Prop :=
  s.step main l = some s'

/-- `m_Names` has exactly the entries it should have, and every view points into one of them. -/
structure TableExact (s : ThreadState H Id) : Prop where
  one : ∀ h id name, s.phase h = .running id name →
    ∃ buf, s.mNames.withKey id = [{ key := id, name, buf }]
  only : ∀ e ∈ s.mNames, ∃ h, s.phase h = .running e.key e.name
  ended : ∀ h id name, s.phase h = .ended id name → s.mNames.withKey id = []
  views : ∀ h buf, s.view h = some (.buffer buf) → ∃ e ∈ s.mNames, e.buf = buf

/-- A record is put together from a view that can be read: it has the name that the thread was
started with, and the literal when the thread is not between its callbacks. -/
def Attributed (s : ThreadState H Id) (l : ThreadLabel H Id) (s' : ThreadState H Id) : Prop :=
  ∀ h dateTime type message, l = .makeRecord h dateTime type message →
    ∃ view threadName, s.view h = some view ∧ s.mNames.read view = some threadName ∧
      s'.records = s.records ++ [(h, ⟨dateTime, threadName, type, message⟩)] ∧
      (∀ id name, s.phase h = .running id name → threadName = name) ∧
      ((∀ id name, s.phase h ≠ .running id name) → threadName = Names.unknownName)

end ThreadState

open ThreadState

namespace ThreadNameLemmas

/-! What the operations do to the entries of each key, and to the views. -/

section Table

variable {Id : Type} {names : Names Id}

/-- A view of an entry reads its name when no other entry has the buffer. -/
theorem read_entry (hbufs : ∀ e ∈ names, ∀ e' ∈ names, e.buf = e'.buf → e = e')
    {e : NameEntry Id} (he : e ∈ names) : names.read (.buffer e.buf) = some e.name := by
  show (names.find? fun e' => e'.buf = e.buf).map (·.name) = some e.name
  cases hfind : names.find? fun e' => e'.buf = e.buf with
  | none =>
    have hnot := List.find?_eq_none.mp hfind e he
    exact absurd (decide_eq_true rfl) hnot
  | some e' =>
    have hbuf : e'.buf = e.buf := by simpa using List.find?_some hfind
    rw [hbufs e' (List.mem_of_find?_eq_some hfind) e he hbuf]
    rfl

variable [DecidableEq Id]

theorem mem_withKey {id : Id} {e : NameEntry Id} :
    e ∈ names.withKey id ↔ e ∈ names ∧ e.key = id := by
  simp [Names.withKey]

theorem mem_of_one {id : Id} {e : NameEntry Id} (h : names.withKey id = [e]) : e ∈ names :=
  (mem_withKey.mp (h ▸ List.mem_singleton_self e)).1

theorem register_of_absent {id : Id} (h : names.withKey id = []) (name : Text) (buf : Nat) :
    names.registerThread id name buf = names ++ [{ key := id, name, buf }] :=
  if_pos h

theorem withKey_register_self {id : Id} (h : names.withKey id = []) (name : Text) (buf : Nat) :
    (names.registerThread id name buf).withKey id = [{ key := id, name, buf }] := by
  rw [register_of_absent h]
  show List.filter _ (names ++ _) = _
  rw [List.filter_append]
  show names.withKey id ++ _ = _
  rw [h]
  simp

theorem withKey_register_of_ne {id id' : Id} (h : names.withKey id = []) (hne : id' ≠ id)
    (name : Text) (buf : Nat) :
    (names.registerThread id name buf).withKey id' = names.withKey id' := by
  rw [register_of_absent h]
  simp [Names.withKey, hne.symm]

theorem withKey_unregister_of_ne {id id' : Id} (hne : id' ≠ id) :
    (names.unregisterThread id).withKey id' = names.withKey id' := by
  unfold Names.withKey Names.unregisterThread
  rw [List.filter_filter]
  refine List.filter_congr fun e _ => ?_
  rcases eq_or_ne e.key id' with heq | hkey
  · simp [heq, hne]
  · simp [hkey]

theorem find_key (id : Id) :
    (names.find? fun e => e.key = id) = (names.withKey id).head? :=
  (List.head?_filter ..).symm

theorem getName_of_one {id : Id} {e : NameEntry Id} (h : names.withKey id = [e]) :
    names.getName id = .buffer e.buf := by
  unfold Names.getName
  rw [find_key, h]
  rfl

theorem getName_of_none {id : Id} (h : names.withKey id = []) :
    names.getName id = .literal Names.unknownName := by
  unfold Names.getName
  rw [find_key, h]
  rfl

end Table

/-! Phases. -/

variable {H Id : Type} {main : H} {s s' : ThreadState H Id}

/-- The thread is between its callbacks, with this id and this name. -/
def Running (s : ThreadState H Id) (h : H) (id : Id) (name : Text) : Prop :=
  s.phase h = .running id name

theorem id_of_running {h : H} {id : Id} {name : Text} (hrun : Running s h id name) :
    (s.phase h).id? = some id := by
  rw [show s.phase h = _ from hrun]
  rfl

variable [DecidableEq H]

theorem running_setPhase_self {h : H} {p : ThreadPhase Id} {id : Id} {name : Text} :
    Running (s.setPhase h p) h id name ↔ p = .running id name := by
  show Function.update s.phase h p h = _ ↔ _
  rw [Function.update_self]

theorem running_setPhase_of_ne {h u : H} (hne : u ≠ h) {p : ThreadPhase Id} {id : Id}
    {name : Text} : Running (s.setPhase h p) u id name ↔ Running s u id name := by
  show Function.update s.phase h p u = _ ↔ _
  rw [Function.update_of_ne hne]
  exact Iff.rfl

/-- Only the phase of `h` changes, and `h` keeps its id. -/
theorem id_setPhase {h : H} {p : ThreadPhase Id} (hid : p.id? = (s.phase h).id?) (u : H) :
    ((s.setPhase h p).phase u).id? = (s.phase u).id? := by
  show (Function.update s.phase h p u).id? = _
  rcases eq_or_ne u h with rfl | hne
  · rw [Function.update_self, hid]
  · rw [Function.update_of_ne hne]

variable [DecidableEq Id]

/-! The invariant. -/

/-- The table and the threads belong together, ids and buffers tell their owners apart, and a view
in progress is the one of the thread's own entry. -/
structure Consistent (s : ThreadState H Id) : Prop where
  ids : ∀ h h' id, (s.phase h).id? = some id → (s.phase h').id? = some id → h = h'
  live : ∀ h id, (s.phase h).id? = some id → id ∈ s.liveIds
  one : ∀ h id name, Running s h id name →
    ∃ buf, s.mNames.withKey id = [{ key := id, name, buf }]
  only : ∀ e ∈ s.mNames, ∃ h, Running s h e.key e.name
  bufs : ∀ e ∈ s.mNames, ∀ e' ∈ s.mNames, e.buf = e'.buf → e = e'
  own : ∀ h view id name, s.view h = some view → Running s h id name →
    ∃ e ∈ s.mNames, e.key = id ∧ e.name = name ∧ view = .buffer e.buf
  unknown : ∀ h view, s.view h = some view → (∀ id name, ¬ Running s h id name) →
    view = .literal Names.unknownName

/-- A thread moves between phases in which it is not between its callbacks. -/
theorem consistent_quiet (hs : Consistent s) {h : H} {p : ThreadPhase Id} {liveIds : List Id}
    (hold : ∀ id name, ¬ Running s h id name) (hnew : ∀ id name, p ≠ .running id name)
    (hids : ∀ id, p.id? = some id → ∀ u, u ≠ h → (s.phase u).id? ≠ some id)
    (hself : ∀ id, p.id? = some id → id ∈ liveIds)
    (hlive : ∀ u, u ≠ h → ∀ id, (s.phase u).id? = some id → id ∈ liveIds) :
    Consistent ({ s with liveIds }.setPhase h p) := by
  have hsame : ∀ u id name, Running ({ s with liveIds }.setPhase h p) u id name ↔
      Running s u id name := by
    intro u id name
    rcases eq_or_ne u h with rfl | hne
    · rw [running_setPhase_self]
      exact ⟨fun hp => absurd hp (hnew id name), fun hr => absurd hr (hold id name)⟩
    · exact running_setPhase_of_ne hne
  have hphase : ∀ u id, (Function.update s.phase h p u).id? = some id →
      (u = h ∧ p.id? = some id) ∨ (u ≠ h ∧ (s.phase u).id? = some id) := by
    intro u id hid
    rcases eq_or_ne u h with rfl | hne
    · rw [Function.update_self] at hid
      exact .inl ⟨rfl, hid⟩
    · rw [Function.update_of_ne hne] at hid
      exact .inr ⟨hne, hid⟩
  constructor
  case ids =>
    intro u u' id hid hid'
    rcases hphase u id hid with ⟨rfl, hp⟩ | ⟨hne, hu⟩
    · rcases hphase u' id hid' with ⟨rfl, -⟩ | ⟨hne', hu'⟩
      · rfl
      · exact absurd hu' (hids id hp u' hne')
    · rcases hphase u' id hid' with ⟨rfl, hp⟩ | ⟨-, hu'⟩
      · exact absurd hu (hids id hp u hne)
      · exact hs.ids u u' id hu hu'
  case live =>
    intro u id hid
    rcases hphase u id hid with ⟨-, hp⟩ | ⟨hne, hu⟩
    · exact hself id hp
    · exact hlive u hne id hu
  case one => exact fun u id name hr => hs.one u id name ((hsame u id name).mp hr)
  case only =>
    intro e he
    obtain ⟨u, hr⟩ := hs.only e he
    exact ⟨u, (hsame u _ _).mpr hr⟩
  case bufs => exact hs.bufs
  case own => exact fun u view id name hview hr => hs.own u view id name hview ((hsame u _ _).mp hr)
  case unknown =>
    exact fun u view hview hr => hs.unknown u view hview fun id name hru =>
      hr id name ((hsame u _ _).mpr hru)

omit [DecidableEq H] in
/-- No entry has the id of a thread that is not between its callbacks. -/
theorem withKey_of_not_running (hs : Consistent s) {h : H} {id : Id}
    (hid : (s.phase h).id? = some id) (hnot : ∀ id name, ¬ Running s h id name) :
    s.mNames.withKey id = [] := by
  refine List.eq_nil_iff_forall_not_mem.mpr fun e he => ?_
  obtain ⟨hmem, rfl⟩ := mem_withKey.mp he
  obtain ⟨u, hrun⟩ := hs.only e hmem
  obtain rfl := hs.ids u h _ (id_of_running hrun) hid
  exact hnot _ _ hrun

/-- A callback of `h` changes no id, so ids stay apart and live. -/
theorem ids_kept (mNames : Names Id) (hs : Consistent s) {h : H} {p : ThreadPhase Id}
    (hid : p.id? = (s.phase h).id?) :
    (∀ u u' id, (({ s with mNames }.setPhase h p).phase u).id? = some id →
        (({ s with mNames }.setPhase h p).phase u').id? = some id → u = u') ∧
      ∀ u id, (({ s with mNames }.setPhase h p).phase u).id? = some id → id ∈ s.liveIds := by
  have hids : ∀ u, (({ s with mNames }.setPhase h p).phase u).id? = (s.phase u).id? :=
    id_setPhase (s := { s with mNames }) hid
  exact ⟨fun u u' id hu hu' => hs.ids u u' id (hids u ▸ hu) (hids u' ▸ hu'),
    fun u id hu => hs.live u id (hids u ▸ hu)⟩

/-- A callback of `h`, which looks up no name meanwhile, leaves the other threads' views right. -/
theorem unknown_kept (hs : Consistent s) {h : H} {p : ThreadPhase Id} {mNames : Names Id}
    (hview : s.view h = none) {u : H} {view : NameView} (hu : s.view u = some view)
    (hnot : ∀ id name, ¬ Running ({ s with mNames }.setPhase h p) u id name) :
    view = .literal Names.unknownName := by
  rcases eq_or_ne u h with rfl | hne
  · exact nomatch hview.symm.trans hu
  · exact hs.unknown u view hu fun id name hru =>
      hnot id name ((running_setPhase_of_ne hne).mpr hru)

/-- The start callback of `h`. -/
theorem consistent_register (hs : Consistent s) {h : H} {id : Id} {name : Text} {buf : Nat}
    (hphase : s.phase h = .created id name) (hview : s.view h = none)
    (hfresh : ∀ e ∈ s.mNames, e.buf ≠ buf) :
    Consistent ({ s with mNames := s.mNames.registerThread id name buf }.setPhase h
      (.running id name)) := by
  have hid : (s.phase h).id? = some id := by rw [hphase]; rfl
  have habsent : s.mNames.withKey id = [] :=
    withKey_of_not_running hs hid fun _ _ hrun => nomatch hphase.symm.trans hrun
  obtain ⟨hids, hlive⟩ :=
    ids_kept (p := .running id name) (s.mNames.registerThread id name buf) hs hid.symm
  have hother : ∀ {u id' name'}, u ≠ h → Running s u id' name' → id' ≠ id := by
    rintro u id' name' hne hrun rfl
    exact hne (hs.ids u h _ (id_of_running hrun) hid)
  have hmem : ∀ e, e ∈ s.mNames.registerThread id name buf ↔
      e ∈ s.mNames ∨ e = { key := id, name, buf } := by
    intro e
    rw [register_of_absent habsent, List.mem_append, List.mem_singleton]
  constructor
  case ids => exact hids
  case live => exact hlive
  case one =>
    intro u id' name' hrun
    rcases eq_or_ne u h with rfl | hne
    · cases running_setPhase_self.mp hrun
      exact ⟨buf, withKey_register_self habsent name buf⟩
    · have hru : Running s u id' name' := (running_setPhase_of_ne hne).mp hrun
      obtain ⟨b, hb⟩ := hs.one u id' name' hru
      exact ⟨b, (withKey_register_of_ne habsent (hother hne hru) name buf).trans hb⟩
  case only =>
    intro e he
    rcases (hmem e).mp he with hold | rfl
    · obtain ⟨u, hrun⟩ := hs.only e hold
      have hne : u ≠ h := by
        rintro rfl
        exact nomatch hphase.symm.trans hrun
      exact ⟨u, (running_setPhase_of_ne hne).mpr hrun⟩
    · exact ⟨h, running_setPhase_self.mpr rfl⟩
  case bufs =>
    intro e he e' he' hbuf
    rcases (hmem e).mp he with hold | rfl
    · rcases (hmem e').mp he' with hold' | rfl
      · exact hs.bufs e hold e' hold' hbuf
      · exact absurd hbuf (hfresh e hold)
    · rcases (hmem e').mp he' with hold' | rfl
      · exact absurd hbuf.symm (hfresh e' hold')
      · rfl
  case own =>
    intro u view id' name' hu hrun
    rcases eq_or_ne u h with rfl | hne
    · exact nomatch hview.symm.trans hu
    · obtain ⟨e, he, hown⟩ := hs.own u view id' name' hu ((running_setPhase_of_ne hne).mp hrun)
      exact ⟨e, (hmem e).mpr (.inl he), hown⟩
  case unknown => exact fun u view hu hnot => unknown_kept hs hview hu hnot

/-- The end callback of `h`. -/
theorem consistent_unregister (hs : Consistent s) {h : H} {id : Id} {name : Text}
    (hphase : s.phase h = .running id name) (hview : s.view h = none) :
    Consistent ({ s with mNames := s.mNames.unregisterThread id }.setPhase h (.ended id name)) := by
  have hid : (s.phase h).id? = some id := id_of_running hphase
  obtain ⟨hids, hlive⟩ := ids_kept (p := .ended id name) (s.mNames.unregisterThread id) hs hid.symm
  have hother : ∀ {u id' name'}, u ≠ h → Running s u id' name' → id' ≠ id := by
    rintro u id' name' hne hrun rfl
    exact hne (hs.ids u h _ (id_of_running hrun) hid)
  have hmem : ∀ e, e ∈ s.mNames.unregisterThread id ↔ e ∈ s.mNames ∧ e.key ≠ id := by
    intro e
    simp [Names.unregisterThread]
  have hne_of : ∀ {u id' name'}, Running ({ s with mNames := s.mNames.unregisterThread id }.setPhase
      h (.ended id name)) u id' name' → u ≠ h := by
    rintro u id' name' hrun rfl
    exact nomatch running_setPhase_self.mp hrun
  constructor
  case ids => exact hids
  case live => exact hlive
  case one =>
    intro u id' name' hrun
    have hne : u ≠ h := hne_of hrun
    have hru : Running s u id' name' := (running_setPhase_of_ne hne).mp hrun
    obtain ⟨b, hb⟩ := hs.one u id' name' hru
    exact ⟨b, (withKey_unregister_of_ne (hother hne hru)).trans hb⟩
  case only =>
    intro e he
    obtain ⟨hold, hkey⟩ := (hmem e).mp he
    obtain ⟨u, hrun⟩ := hs.only e hold
    have hne : u ≠ h := by
      rintro rfl
      cases hphase.symm.trans hrun
      exact hkey rfl
    exact ⟨u, (running_setPhase_of_ne hne).mpr hrun⟩
  case bufs =>
    exact fun e he e' he' => hs.bufs e ((hmem e).mp he).1 e' ((hmem e').mp he').1
  case own =>
    intro u view id' name' hu hrun
    have hne : u ≠ h := hne_of hrun
    have hru : Running s u id' name' := (running_setPhase_of_ne hne).mp hrun
    obtain ⟨e, he, hkey, hown⟩ := hs.own u view id' name' hu hru
    exact ⟨e, (hmem e).mpr ⟨he, hkey ▸ hother hne hru⟩, hkey, hown⟩
  case unknown => exact fun u view hu hnot => unknown_kept hs hview hu hnot

/-- A log call of `h` has looked its thread up. -/
theorem consistent_getName (hs : Consistent s) {h : H} {id : Id} (hid : (s.phase h).id? = some id) :
    Consistent { s with view := Function.update s.view h (some (s.mNames.getName id)) } := by
  have hview : ∀ {u view}, Function.update s.view h (some (s.mNames.getName id)) u = some view →
      (u = h ∧ view = s.mNames.getName id) ∨ (u ≠ h ∧ s.view u = some view) := by
    intro u view hu
    rcases eq_or_ne u h with rfl | hne
    · rw [Function.update_self] at hu
      exact .inl ⟨rfl, (Option.some.inj hu).symm⟩
    · rw [Function.update_of_ne hne] at hu
      exact .inr ⟨hne, hu⟩
  refine { hs with own := ?_, unknown := ?_ }
  · intro u view id' name' hu hrun
    rcases hview hu with ⟨rfl, rfl⟩ | ⟨-, hold⟩
    · obtain rfl : id' = id := Option.some.inj ((id_of_running hrun).symm.trans hid)
      obtain ⟨buf, hone⟩ := hs.one u id' name' hrun
      exact ⟨_, mem_of_one hone, rfl, rfl, getName_of_one hone⟩
    · exact hs.own u view id' name' hold hrun
  · intro u view hu hnot
    rcases hview hu with ⟨rfl, rfl⟩ | ⟨-, hold⟩
    · exact getName_of_none (withKey_of_not_running hs hid hnot)
    · exact hs.unknown u view hold hnot

/-- A log call of `h` is done with its view. -/
theorem consistent_makeRecord (hs : Consistent s) {h : H} {records : List (H × LogRecord)} :
    Consistent { s with view := Function.update s.view h none, records } := by
  have hview : ∀ {u view}, Function.update s.view h none u = some view → s.view u = some view := by
    intro u view hu
    rcases eq_or_ne u h with rfl | hne
    · rw [Function.update_self] at hu
      cases hu
    · rwa [Function.update_of_ne hne] at hu
  exact { hs with
    own := fun u view id name hu => hs.own u view id name (hview hu)
    unknown := fun u view hu => hs.unknown u view (hview hu) }

omit [DecidableEq H] in
theorem consistent_empty : Consistent (empty : ThreadState H Id) where
  ids _ _ _ hid _ := nomatch hid
  live _ _ hid := nomatch hid
  one _ _ _ hrun := nomatch hrun
  only _ he := absurd he List.not_mem_nil
  bufs _ he := absurd he List.not_mem_nil
  own _ _ _ _ hview := nomatch hview
  unknown _ _ hview := nomatch hview

/-- The main thread starts like any other. -/
theorem consistent_main (main : H) (id : Id) :
    Consistent ({ (empty : ThreadState H Id) with liveIds := [id] }.setPhase main
      (.created id mainThreadName)) := by
  refine consistent_quiet consistent_empty ?_ ?_ ?_ ?_ ?_
  · exact fun _ _ hrun => nomatch hrun
  · exact fun _ _ heq => nomatch heq
  · exact fun _ _ _ _ hid => nomatch hid
  · rintro _ ⟨⟩
    exact List.mem_singleton_self id
  · exact fun _ _ _ hid => nomatch hid

theorem consistent_init (main : H) (id : Id) (buf : Nat) : Consistent (init main id buf) := by
  have hphase : ({ (empty : ThreadState H Id) with liveIds := [id] }.setPhase main
      (.created id mainThreadName)).phase main = .created id mainThreadName :=
    Function.update_self ..
  have hfresh : ∀ e ∈ (empty : ThreadState H Id).mNames, e.buf ≠ buf :=
    fun _ he => absurd he List.not_mem_nil
  have hstarted := consistent_register (consistent_main main id) hphase rfl hfresh
  simp only [setPhase, Function.update_idem] at hstarted
  exact hstarted

/-- A thread that is not between its callbacks exits, and its id is free again. -/
theorem consistent_exit (hs : Consistent s) {h : H} {id : Id} (hid : (s.phase h).id? = some id)
    (hnot : ∀ id name, ¬ Running s h id name) :
    Consistent ({ s with liveIds := s.liveIds.filter (· ≠ id) }.setPhase h .exited) := by
  refine consistent_quiet hs hnot ?_ ?_ ?_ ?_
  · exact fun _ _ heq => nomatch heq
  · exact fun _ hexit => nomatch hexit
  · exact fun _ hexit => nomatch hexit
  · intro u hne id' hid'
    have hother : id' ≠ id := by
      rintro rfl
      exact hne (hs.ids u h id' hid' hid)
    exact List.mem_filter.mpr ⟨hs.live u id' hid', by simpa using hother⟩

theorem consistent_step {l : ThreadLabel H Id} (hs : Consistent s) (hstep : Steps main s l s') :
    Consistent s' := by
  cases l with
  | create h id name =>
    simp only [Steps, ThreadState.step] at hstep
    split at hstep
    · next hphase =>
      split at hstep
      · cases hstep
      · next hfree =>
        cases hstep
        refine consistent_quiet hs ?_ ?_ ?_ ?_ ?_
        · exact fun _ _ hrun => nomatch hphase.symm.trans hrun
        · exact fun _ _ heq => nomatch heq
        · rintro _ ⟨⟩ u - hid
          exact hfree (hs.live u id hid)
        · rintro _ ⟨⟩
          exact List.mem_cons_self
        · exact fun u _ id' hid => List.mem_cons_of_mem id (hs.live u id' hid)
    · cases hstep
  | started h buf =>
    simp only [Steps, ThreadState.step] at hstep
    split at hstep
    · next id name hphase hview =>
      split at hstep
      · cases hstep
      · next hfresh =>
        cases hstep
        exact consistent_register hs hphase hview fun e he hbuf =>
          hfresh (by simpa using ⟨e, he, hbuf⟩)
    · cases hstep
  | ended h =>
    simp only [Steps, ThreadState.step] at hstep
    split at hstep
    · next id name hphase hview =>
      split at hstep
      · cases hstep
      · cases hstep
        exact consistent_unregister hs hphase hview
    · cases hstep
  | exit h =>
    simp only [Steps, ThreadState.step] at hstep
    split at hstep
    · next id name hphase _ =>
      cases hstep
      exact consistent_exit hs (by rw [hphase]; rfl) fun _ _ hrun => nomatch hphase.symm.trans hrun
    · next id name hphase _ =>
      cases hstep
      exact consistent_exit hs (by rw [hphase]; rfl) fun _ _ hrun => nomatch hphase.symm.trans hrun
    · cases hstep
  | getName h =>
    simp only [Steps, ThreadState.step] at hstep
    split at hstep
    · next id hid _ =>
      cases hstep
      exact consistent_getName hs hid
    · cases hstep
  | makeRecord h dateTime type message =>
    simp only [Steps, ThreadState.step] at hstep
    split at hstep
    · cases hstep
      exact consistent_makeRecord hs
    · cases hstep

omit [DecidableEq H] in
theorem tableExact_of_consistent (hs : Consistent s) : s.TableExact where
  one := hs.one
  only := hs.only
  ended h id name hphase :=
    withKey_of_not_running hs (h := h) (by rw [hphase]; rfl) fun _ _ hrun =>
      nomatch hphase.symm.trans hrun
  views h buf hview := by
    rcases Classical.em (∃ id name, Running s h id name) with ⟨id, name, hrun⟩ | hnot
    · obtain ⟨e, he, -, -, hbuf⟩ := hs.own h _ id name hview hrun
      exact ⟨e, he, (NameView.buffer.inj hbuf).symm⟩
    · exact nomatch hs.unknown h _ hview fun id name hrun => hnot ⟨id, name, hrun⟩

theorem attributed_step {l : ThreadLabel H Id} (hs : Consistent s) (hstep : Steps main s l s') :
    Attributed s l s' := by
  rintro h dateTime type message rfl
  simp only [Steps, ThreadState.step] at hstep
  split at hstep
  · next view hview =>
    cases hstep
    rcases Classical.em (∃ id name, Running s h id name) with ⟨id, name, hrun⟩ | hnot
    · obtain ⟨e, he, -, rfl, rfl⟩ := hs.own h view id name hview hrun
      have hread : s.mNames.read (.buffer e.buf) = some e.name := read_entry hs.bufs he
      refine ⟨_, e.name, hview, hread, by rw [hread]; rfl, ?_, ?_⟩
      · intro id' name' hrun'
        cases (show s.phase h = _ from hrun).symm.trans hrun'
        rfl
      · exact fun hnot => absurd hrun (hnot id e.name)
    · obtain rfl := hs.unknown h view hview fun id name hrun => hnot ⟨id, name, hrun⟩
      refine ⟨_, Names.unknownName, hview, rfl, rfl, ?_, fun _ => rfl⟩
      exact fun id name hrun => absurd ⟨id, name, hrun⟩ hnot
  · cases hstep

end ThreadNameLemmas

open ThreadNameLemmas

variable {H Id : Type} [DecidableEq H] [DecidableEq Id]

/-- In every run the table is exact, and every record is made from a view of a live entry and has
the name of its own thread. -/
theorem log_attribution (main : H) (id : Id) (buf : Nat)
    {tr : List (ThreadState H Id × ThreadLabel H Id × ThreadState H Id)} {s : ThreadState H Id}
    (hrun : Run (Steps main) (init main id buf) tr s) :
    s.TableExact ∧ ∀ t ∈ tr, Attributed t.1 t.2.1 t.2.2 := by
  have hcons : Consistent s := hrun.inv_all (consistent_init main id buf) consistent_step
  refine ⟨tableExact_of_consistent hcons, fun t ht => ?_⟩
  have hbefore : Consistent t.1 :=
    (hrun.inv_mem (C := fun _ _ => True) (consistent_init main id buf)
      (fun hs _ => consistent_step hs) (fun _ _ => trivial) ht).1
  exact attributed_step hbefore (hrun.step_of_mem ht)

/-! ## Two threads with one id -/

/-- Thread 1 has the id 7 and logs; thread 2 gets the id when thread 1 is gone, and logs before and
after its start callback. -/
def reuseSchedule : List (ThreadLabel Nat Nat) :=
  [.create 1 7 ['a'], .started 1 50, .getName 1, .makeRecord 1 [] [] [], .ended 1, .exit 1,
   .create 2 7 ['b'], .getName 2, .makeRecord 2 [] [] [], .started 2 50, .getName 2, .getName 0,
   .makeRecord 2 [] [] []]

/-- Each of the three records has the name that its thread has at that moment. -/
theorem log_attribution_reuse :
    ∃ tr s, Run (Steps 0) (init (0 : Nat) (3 : Nat) 40) tr s ∧ s.TableExact ∧
      (∀ t ∈ tr, Attributed t.1 t.2.1 t.2.2) ∧
      s.records.map (fun r => (r.1, r.2.threadName)) =
        [(1, ['a']), (2, Names.unknownName), (2, ['b'])] := by
  obtain ⟨tr, s, hrun, -, hrecords⟩ := exists_run (ThreadState.step 0) (R := Steps 0) id
    (init (0 : Nat) (3 : Nat) 40) reuseSchedule
    (fun r => r.2.records.map fun r => (r.1, r.2.threadName)) rfl
  exact ⟨tr, s, hrun, (log_attribution 0 3 40 hrun).1, (log_attribution 0 3 40 hrun).2, hrecords⟩

end FlavoEngine.Core
