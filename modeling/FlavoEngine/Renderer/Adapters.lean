import FlavoEngine.Renderer.Dx12

/-!
# The adapters

`InitializeDevice` (`renderer/source/renderer_dx12/renderer_dx12.cpp`) enumerates the adapters into
two lists by their software flag and creates the device from the first one that yields it, hardware
adapters before software adapters.

Results:
1. `initializeDevice_first`: the device is that of the first usable adapter, every adapter before it
   is tried once and none behind it.
2. `enumeration_safe_iff`: the enumeration is safe exactly when the first call that does not succeed
   returns `DXGI_ERROR_NOT_FOUND`.
3. `enumerateAdapters_agrees`: the loop that shows the call through a null pointer is the
   enumeration of `InitializeDevice`.
-/

namespace FlavoEngine.Renderer

open FlavoEngine.Core.Text
open FlavoEngine.Lib
open Dx12Lemmas

variable (file : SourceFile) (m : Machine)

/-! ## Trying the adapters -/

/-- `D3D12CreateDevice` succeeds on the adapter. -/
def Machine.yields (k : Nat) : Bool :=
  succeeded (m.d3d12CreateDevice k).hr

/-- The order in which `n` adapters are tried: hardware adapters, then software adapters, each in
the order of enumeration. -/
def Machine.adapterOrder (n : Nat) : List Nat :=
  (List.range n).filter (fun k => !isSoftware m k) ++ (List.range n).filter (isSoftware m)

/-- The adapters that `D3D12CreateDevice` was called on. -/
def devicesTried (calls : List Call) : List Nat :=
  calls.filterMap fun
    | .d3d12CreateDevice k => some k
    | _ => none

/-- The calls of an enumeration of `n` adapters. -/
def enumerationCalls (n : Nat) : List Call :=
  (List.range n).flatMap (fun k => [.enumAdapters1 k, .getDesc1 k]) ++ [.enumAdapters1 n]

namespace AdapterLemmas

theorem adapterOrder_perm (n : Nat) : (m.adapterOrder n).Perm (List.range n) := by
  exact List.perm_append_comm.trans (List.filter_append_perm (isSoftware m) (List.range n))

theorem devicesTried_append (calls calls' : List Call) :
    devicesTried (calls ++ calls') = devicesTried calls ++ devicesTried calls' :=
  List.filterMap_append

theorem devicesTried_enumeration (n : Nat) : devicesTried (enumerationCalls n) = [] := by
  simp [devicesTried, enumerationCalls, List.filterMap_flatMap]

theorem devicesTried_create (l : List Nat) : devicesTried (l.map .d3d12CreateDevice) = l := by
  unfold devicesTried
  rw [List.filterMap_map]
  exact List.filterMap_some

/-- An enumeration with enough fuel returns, with the calls for each adapter. -/
theorem enumerate_calls {n : Nat} (hn : m.Enumerates n) {count i fuel : Nat} {hw sw : List Nat}
    (hi : i + count = n) (hfuel : count < fuel) :
    ∃ hw' sw', enumerateAdapters m fuel i hw sw = .ok (hw', sw',
      (List.range' i count).flatMap (fun k => [.enumAdapters1 k, .getDesc1 k]) ++
        [.enumAdapters1 n]) := by
  induction count generalizing i fuel hw sw with
  | zero =>
    obtain ⟨fuel, rfl⟩ := Nat.exists_eq_succ_of_ne_zero (Nat.ne_of_gt hfuel)
    obtain rfl : i = n := hi
    exact ⟨hw, sw, by simp [enumerateAdapters, hn.1]⟩
  | succ count ih =>
    obtain ⟨fuel, rfl⟩ := Nat.exists_eq_succ_of_ne_zero (Nat.ne_of_gt (Nat.zero_lt_of_lt hfuel))
    have hsucc : succeeded (m.enumAdapters1 i) = true :=
      hn.2 i (hi ▸ Nat.lt_add_of_pos_right (Nat.succ_pos count))
    have hmore := ne_notFound hsucc
    have hfail : failed (m.enumAdapters1 i) = false := by rw [failed_eq, hsucc]; rfl
    -- the rest of the loop makes the calls of the other adapters, in whichever list this one is
    obtain ⟨hw', sw', hrest⟩ : ∃ hw' sw',
        (if m.adapterFlags i &&& dxgiAdapterFlagSoftware ≠ 0 then
          enumerateAdapters m fuel (i + 1) hw (sw ++ [i])
        else enumerateAdapters m fuel (i + 1) (hw ++ [i]) sw) = .ok (hw', sw',
          (List.range' (i + 1) count).flatMap (fun k => [.enumAdapters1 k, .getDesc1 k]) ++
            [.enumAdapters1 n]) := by
      have hnext : i + 1 + count = n := (Nat.succ_add_eq_add_succ i count).trans hi
      split
      · exact ih hnext (Nat.lt_of_succ_lt_succ hfuel)
      · exact ih hnext (Nat.lt_of_succ_lt_succ hfuel)
    refine ⟨hw', sw', ?_⟩
    rw [enumerateAdapters]
    simp only [if_neg hmore, hfail, Bool.false_eq_true, if_false, hrest]
    rfl

/-- An enumeration of `n` adapters leaves them in the two lists. -/
theorem enumerateAdapters_ok {n fuel : Nat} (hn : m.Enumerates n) (hfuel : n < fuel) :
    enumerateAdapters m fuel 0 [] [] = .ok ((List.range n).filter (fun k => !isSoftware m k),
      (List.range n).filter (isSoftware m), enumerationCalls n) := by
  obtain ⟨hw, sw, hrun⟩ : ∃ hw sw, enumerateAdapters m fuel 0 [] [] = .ok (hw, sw,
      (List.range' 0 n).flatMap (fun k => [Call.enumAdapters1 k, .getDesc1 k]) ++
        [Call.enumAdapters1 n]) :=
    enumerate_calls m hn (Nat.zero_add n) hfuel
  obtain ⟨n', hn', rfl, rfl⟩ := enumerateAdapters_spec m hrun
  obtain rfl := enumerates_unique m hn hn'
  rw [hrun, enumerationCalls, List.range_eq_range']

/-- A loop of `try_adapter` with a null pointer stops at the first usable adapter. -/
theorem tryAdapters_eq (l : List Nat) :
    tryAdapters m l none = ((l.find? m.yields).isSome,
      (l.find? m.yields).map fun k => (m.d3d12CreateDevice k).obj,
      (tried m.yields l).map .d3d12CreateDevice) := by
  induction l with
  | nil => rfl
  | cons k l ih =>
    by_cases hk : succeeded (m.d3d12CreateDevice k).hr = true
    · have hyields : m.yields k = true := hk
      simp [tryAdapters, tried, Created.ptr, hk, hyields]
    · have hyields : m.yields k = false := Bool.eq_false_iff.mpr hk
      simp [tryAdapters, tried, Created.ptr, hk, hyields, ih]

/-- Some adapter yields a device exactly when the search finds one. -/
theorem findsDevice_iff {n : Nat} (hn : m.Enumerates n) :
    m.FindsDevice ↔ ((m.adapterOrder n).find? m.yields).isSome = true := by
  rw [List.find?_isSome]
  constructor
  · rintro ⟨n', hn', k, hk, hyields⟩
    obtain rfl := enumerates_unique m hn hn'
    exact ⟨k, (adapterOrder_perm m n).mem_iff.mpr (List.mem_range.mpr hk), hyields⟩
  · rintro ⟨k, hk, hyields⟩
    exact ⟨n, hn, k, List.mem_range.mp ((adapterOrder_perm m n).mem_iff.mp hk), hyields⟩

/-- `InitializeDevice` over `n` adapters. -/
theorem initializeDevice_eq {n fuel : Nat} (hfactory : succeeded m.createDXGIFactory1 = true)
    (hn : m.Enumerates n) (hfuel : n < fuel) :
    initializeDevice file m fuel none =
      .ok (if ((m.adapterOrder n).find? m.yields).isSome then success
          else file.error 112 "Couldn't find any compatible adapter".toList,
        ((m.adapterOrder n).find? m.yields).map fun k => (m.d3d12CreateDevice k).obj,
        .createDXGIFactory1 :: enumerationCalls n ++
          (tried m.yields (m.adapterOrder n)).map .d3d12CreateDevice) := by
  have hfail : failed m.createDXGIFactory1 = false := by rw [failed_eq, hfactory]; rfl
  simp only [initializeDevice, hfail, Bool.false_eq_true, if_false, enumerateAdapters_ok m hn hfuel,
    Machine.adapterOrder, tryAdapters_eq, List.find?_append, tried_append]
  cases hhard : ((List.range n).filter fun k => !isSoftware m k).find? m.yields with
  | some k => rfl
  | none =>
    simp only [Option.isSome_none, Option.map_none, Option.none_or, tryAdapters_eq,
      tried_of_none (List.find?_eq_none.mp hhard)]
    cases ((List.range n).filter (isSoftware m)).find? m.yields with
    | some k => simp
    | none => simp

theorem initializeDevice_factory {fuel : Nat} (hfactory : ¬ succeeded m.createDXGIFactory1 = true) :
    initializeDevice file m fuel none =
      .ok (file.error 56 (format "CreateDXGIFactory1 failed with code: {}".toList
        [hrText m.createDXGIFactory1]), none, [.createDXGIFactory1]) := by
  have hfail : failed m.createDXGIFactory1 = true := by
    rw [failed_eq, Bool.eq_false_iff.mpr hfactory]
    rfl
  simp only [initializeDevice, hfail, if_true]

end AdapterLemmas

open AdapterLemmas

/-- `InitializeDevice` over any `n` adapters and any outcomes: it succeeds exactly when the factory
is created and some adapter yields a device. The device is then that of the first such adapter in
the order of trying; the adapters before it have been tried, each once, and none behind it. After an
error the pointer is null. -/
theorem initializeDevice_first {n fuel : Nat} (hn : m.Enumerates n) (hfuel : n < fuel) :
    (m.adapterOrder n).Perm (List.range n) ∧
      ∃ res device calls, initializeDevice file m fuel none = .ok (res, device, calls) ∧
        (res.isOk = true ↔
          succeeded m.createDXGIFactory1 = true ∧ ∃ k, k < n ∧ m.yields k = true) ∧
        (res.isOk = true → ∃ pre k post, m.adapterOrder n = pre ++ k :: post ∧
          (∀ j ∈ pre, ¬ m.yields j = true) ∧ m.yields k = true ∧
          device = some (m.d3d12CreateDevice k).obj ∧ devicesTried calls = pre ++ [k]) ∧
        (res.isOk = false → device = none) := by
  have hperm := adapterOrder_perm m n
  refine ⟨hperm, ?_⟩
  by_cases hfactory : succeeded m.createDXGIFactory1 = true
  · refine ⟨_, _, _, initializeDevice_eq file m hfactory hn hfuel, ?_⟩
    cases hfind : (m.adapterOrder n).find? m.yields with
    | none =>
      have hnone := List.find?_eq_none.mp hfind
      refine ⟨⟨(nomatch ·), fun h => ?_⟩, (nomatch ·), fun _ => rfl⟩
      obtain ⟨-, k, hk, hyields⟩ := h
      exact absurd hyields (hnone k (hperm.mem_iff.mpr (List.mem_range.mpr hk)))
    | some k =>
      obtain ⟨hyields, pre, post, horder, hpre⟩ := List.find?_eq_some_iff_append.mp hfind
      have hbefore : ∀ j ∈ pre, ¬ m.yields j = true := fun j hj => by simpa using hpre j hj
      have hmem : k ∈ List.range n := hperm.mem_iff.mp (List.mem_of_find?_eq_some hfind)
      refine ⟨⟨fun _ => ⟨hfactory, k, List.mem_range.mp hmem, hyields⟩, fun _ => rfl⟩, fun _ =>
        ⟨pre, k, post, horder, hbefore, hyields, rfl, ?_⟩, (nomatch ·)⟩
      rw [devicesTried_append, devicesTried_create, horder, tried_of_first hbefore hyields]
      have hnone : devicesTried (.createDXGIFactory1 :: enumerationCalls n) = [] :=
        devicesTried_enumeration n
      rw [hnone, List.nil_append]
  · exact ⟨_, _, _, initializeDevice_factory file m hfactory,
      ⟨(nomatch ·), fun h => absurd h.1 hfactory⟩, (nomatch ·), fun _ => rfl⟩

/-- Three adapters: a software adapter, a hardware adapter without DX12, and one with it. -/
def threeAdapters : Machine where
  createDXGIFactory1 := 0
  enumAdapters1 k := if k < 3 then 0 else dxgiErrorNotFound
  adapterFlags k := if k = 0 then dxgiAdapterFlagSoftware else 0
  d3d12CreateDevice k := ⟨if k = 1 then -1 else 0, 100 + k⟩
  createCommandQueue := ⟨0, 200⟩
  createDXGIFactory1ForSwapChain := 0
  createSwapChain := ⟨0, 300⟩
  getCurrentBackBufferIndex := 0
  createDescriptorHeap := ⟨0, 400⟩
  getDescriptorHandleIncrementSize := 32
  getCPUDescriptorHandleForHeapStart := 4096
  getBuffer i := ⟨0, 500 + i⟩
  createCommandAllocator i := ⟨0, 600 + i⟩
  createCommandList i := ⟨0, 700 + i⟩

theorem rendererDx12_noNul : '\x00' ∉ "renderer_dx12.cpp".toList := by decide

/-- The path of the source file. -/
def rendererDx12File : SourceFile where
  name := "renderer_dx12.cpp".toList
  noNul := rendererDx12_noNul

theorem threeAdapters_enumerates : threeAdapters.Enumerates 3 := by
  refine ⟨rfl, fun k hk => ?_⟩
  have hcode : threeAdapters.enumAdapters1 k = 0 := if_pos hk
  rw [hcode]
  rfl

theorem initializeDevice_first_three :
    (threeAdapters.adapterOrder 3).Perm (List.range 3) ∧
      ∃ res device calls,
        initializeDevice rendererDx12File threeAdapters 4 none = .ok (res, device, calls) ∧
        (res.isOk = true ↔ succeeded threeAdapters.createDXGIFactory1 = true ∧
          ∃ k, k < 3 ∧ threeAdapters.yields k = true) ∧
        (res.isOk = true → ∃ pre k post, threeAdapters.adapterOrder 3 = pre ++ k :: post ∧
          (∀ j ∈ pre, ¬ threeAdapters.yields j = true) ∧ threeAdapters.yields k = true ∧
          device = some (threeAdapters.d3d12CreateDevice k).obj ∧
          devicesTried calls = pre ++ [k]) ∧
        (res.isOk = false → device = none) :=
  initializeDevice_first rendererDx12File threeAdapters threeAdapters_enumerates (by decide)

example : threeAdapters.adapterOrder 3 = [1, 2, 0] := by decide

/-! ## Every sequence of return codes -/

/-- A call of the enumeration loop, with the adapter behind the pointer. -/
inductive LoopCall where
  | enumAdapters1 (adapterIdx : Nat)
  | getDesc1 (adapter : Option Nat)
deriving DecidableEq

/-- The variables of the loop and the calls it has made. An adapter is the number of the call it
comes from. -/
structure LoopState where
  adapterIdx : Nat := 0
  hardwareAdapters : List (Option Nat) := []
  softwareAdapters : List (Option Nat) := []
  calls : List LoopCall := []
deriving DecidableEq

/-- Where the loop stands. -/
inductive LoopExit where
  | ended
  /-- It has called `GetDesc1` through a null pointer. -/
  | nullCall
  | goesOn
deriving DecidableEq

/-- The last call of `EnumAdapters1`. -/
def LoopState.last (s : LoopState) : LoopState :=
  { s with calls := s.calls ++ [.enumAdapters1 s.adapterIdx] }

/-- `++adapter_idx` and `adapter->GetDesc1(&desc)` after a call of `EnumAdapters1`. -/
def LoopState.describe (s : LoopState) (adapter : Option Nat) : LoopState :=
  { s with
    adapterIdx := s.adapterIdx + 1
    calls := s.calls ++ [.enumAdapters1 s.adapterIdx, .getDesc1 adapter] }

/-- The adapter goes to one of the lists. -/
def LoopState.add (s : LoopState) (adapter : Option Nat) (flags : UInt32) : LoopState :=
  if flags &&& dxgiAdapterFlagSoftware ≠ 0 then
    { s with softwareAdapters := s.softwareAdapters ++ [adapter] }
  else { s with hardwareAdapters := s.hardwareAdapters ++ [adapter] }

/-- The loop over `EnumAdapters1` after at most `rounds` rounds, for every code that a call may
return; a call that fails leaves `adapter` null. -/
def enumerationLoop : Nat → LoopState → LoopExit × LoopState
  | 0, s => (.goesOn, s)
  | rounds + 1, s =>
    let hr := m.enumAdapters1 s.adapterIdx
    let adapter := if succeeded hr then some s.adapterIdx else none
    if hr = dxgiErrorNotFound then (.ended, s.last)
    else if adapter.isNone then (.nullCall, s.describe adapter)
    else
      enumerationLoop rounds ((s.describe adapter).add adapter (m.adapterFlags s.adapterIdx))

/-- The adapter comes from a call that succeeded. -/
def Obtained (calls : List LoopCall) (adapter : Option Nat) : Prop :=
  ∃ k, adapter = some k ∧ succeeded (m.enumAdapters1 k) = true ∧ .enumAdapters1 k ∈ calls

/-- Only adapters that have been obtained are described and kept. -/
structure KeepsObtained (s : LoopState) : Prop where
  described : ∀ adapter, .getDesc1 adapter ∈ s.calls → Obtained m s.calls adapter
  hardware : ∀ adapter ∈ s.hardwareAdapters, Obtained m s.calls adapter
  software : ∀ adapter ∈ s.softwareAdapters, Obtained m s.calls adapter

/-- What is asked of the loop after some rounds: it has ended with the first call that did not
succeed, and it keeps to the adapters that it has obtained. -/
structure EnumerationSafe (rounds : Nat) (exit : LoopExit) (s : LoopState) : Prop where
  ends : ∀ k, k < rounds → ¬ succeeded (m.enumAdapters1 k) = true →
    exit = .ended ∧ ∀ j, .enumAdapters1 j ∈ s.calls → j ≤ k
  keeps : KeepsObtained m s

/-- The call is the first that does not succeed. -/
def FirstFailure (k : Nat) : Prop :=
  ¬ succeeded (m.enumAdapters1 k) = true ∧ ∀ j, j < k → succeeded (m.enumAdapters1 j) = true

namespace AdapterLemmas

variable {m} {s : LoopState}

@[simp] theorem add_calls (adapter : Option Nat) (flags : UInt32) :
    (s.add adapter flags).calls = s.calls := by
  unfold LoopState.add
  split <;> rfl

@[simp] theorem add_adapterIdx (adapter : Option Nat) (flags : UInt32) :
    (s.add adapter flags).adapterIdx = s.adapterIdx := by
  unfold LoopState.add
  split <;> rfl

/-- The adapter is the only new one in the lists. -/
theorem mem_add {adapter a : Option Nat} {flags : UInt32}
    (h : a ∈ (s.add adapter flags).hardwareAdapters ∨ a ∈ (s.add adapter flags).softwareAdapters) :
    a = adapter ∨ a ∈ s.hardwareAdapters ∨ a ∈ s.softwareAdapters := by
  unfold LoopState.add at h
  split at h
  · rw [List.mem_append, List.mem_singleton] at h
    grind
  · rw [List.mem_append, List.mem_singleton] at h
    grind

theorem obtained_append {calls calls' : List LoopCall} {adapter : Option Nat}
    (h : Obtained m calls adapter) : Obtained m (calls ++ calls') adapter := by
  obtain ⟨k, hk, hsucc, hmem⟩ := h
  exact ⟨k, hk, hsucc, List.mem_append_left calls' hmem⟩

/-- The call that ends the loop describes nothing. -/
theorem keepsObtained_last (h : KeepsObtained m s) : KeepsObtained m s.last := by
  refine ⟨fun a ha => ?_, fun a ha => obtained_append (h.hardware a ha),
    fun a ha => obtained_append (h.software a ha)⟩
  rcases List.mem_append.mp ha with hold | hnew
  · exact obtained_append (h.described a hold)
  · simp at hnew

/-- A round over an adapter that has been obtained. -/
theorem keepsObtained_add (h : KeepsObtained m s)
    (hsucc : succeeded (m.enumAdapters1 s.adapterIdx) = true) (flags : UInt32) :
    KeepsObtained m ((s.describe (some s.adapterIdx)).add (some s.adapterIdx) flags) := by
  have hnew : Obtained m (s.describe (some s.adapterIdx)).calls (some s.adapterIdx) :=
    ⟨s.adapterIdx, rfl, hsucc, List.mem_append_right _ List.mem_cons_self⟩
  have hkept : ∀ a, a = some s.adapterIdx ∨ a ∈ s.hardwareAdapters ∨ a ∈ s.softwareAdapters →
      Obtained m (s.describe (some s.adapterIdx)).calls a := by
    rintro a (rfl | hhard | hsoft)
    · exact hnew
    · exact obtained_append (h.hardware a hhard)
    · exact obtained_append (h.software a hsoft)
  refine ⟨fun a ha => ?_, fun a ha => ?_, fun a ha => ?_⟩
  · rw [add_calls] at ha ⊢
    rcases List.mem_append.mp ha with hold | hdescribed
    · exact obtained_append (h.described a hold)
    · obtain rfl : a = some s.adapterIdx := by simpa using hdescribed
      exact hnew
  · rw [add_calls]
    exact hkept a (mem_add (s := s.describe _) (.inl ha))
  · rw [add_calls]
    exact hkept a (mem_add (s := s.describe _) (.inr ha))

/-- The invariant of the loop: every call so far has succeeded. -/
structure Sound (m : Machine) (s : LoopState) : Prop where
  before : ∀ k, k < s.adapterIdx → succeeded (m.enumAdapters1 k) = true
  made : ∀ k, .enumAdapters1 k ∈ s.calls → k < s.adapterIdx
  keeps : KeepsObtained m s

theorem sound_start : Sound m {} :=
  ⟨fun _ hk => absurd hk (Nat.not_lt_zero _), fun _ hk => absurd hk List.not_mem_nil,
    ⟨fun _ h => absurd h List.not_mem_nil, fun _ h => absurd h List.not_mem_nil,
      fun _ h => absurd h List.not_mem_nil⟩⟩

theorem Sound.add (h : Sound m s) (hsucc : succeeded (m.enumAdapters1 s.adapterIdx) = true)
    (flags : UInt32) :
    Sound m ((s.describe (some s.adapterIdx)).add (some s.adapterIdx) flags) := by
  refine ⟨fun k hk => ?_, fun k hk => ?_, keepsObtained_add h.keeps hsucc flags⟩
  · rw [add_adapterIdx] at hk
    rcases Nat.lt_succ_iff_lt_or_eq.mp hk with hbefore | rfl
    · exact h.before k hbefore
    · exact hsucc
  · rw [add_calls] at hk
    rw [add_adapterIdx]
    rcases List.mem_append.mp hk with hold | hnew
    · exact Nat.lt_succ_of_lt (h.made k hold)
    · obtain rfl : k = s.adapterIdx := by simpa using hnew
      exact Nat.lt_succ_self _

/-- The loop is safe over codes of which the first failure is the one it tests for. -/
theorem enumerationLoop_safe
    (hfirst : ∀ k, FirstFailure m k → m.enumAdapters1 k = dxgiErrorNotFound) (rounds : Nat)
    (hs : Sound m s) :
    EnumerationSafe m (s.adapterIdx + rounds) (enumerationLoop m rounds s).1
      (enumerationLoop m rounds s).2 := by
  induction rounds generalizing s with
  | zero => exact ⟨fun k hk hfail => absurd (hs.before k hk) hfail, hs.keeps⟩
  | succ rounds ih =>
    by_cases hk : succeeded (m.enumAdapters1 s.adapterIdx) = true
    · have hmore := ne_notFound hk
      have hrest := ih (hs.add hk (m.adapterFlags s.adapterIdx))
      have hidx : (s.describe (some s.adapterIdx)).adapterIdx + rounds =
          s.adapterIdx + (rounds + 1) := Nat.add_right_comm s.adapterIdx 1 rounds
      rw [add_adapterIdx, hidx] at hrest
      simpa [enumerationLoop, hk, hmore] using hrest
    · have hend : m.enumAdapters1 s.adapterIdx = dxgiErrorNotFound :=
        hfirst s.adapterIdx ⟨hk, hs.before⟩
      simp only [enumerationLoop, hend, if_true]
      refine ⟨fun k _ hfail => ⟨rfl, fun j hj => ?_⟩, keepsObtained_last hs.keeps⟩
      have hle : s.adapterIdx ≤ k :=
        Nat.le_of_not_lt fun hlt => hfail (hs.before k hlt)
      rcases List.mem_append.mp hj with hold | hnew
      · exact Nat.le_trans (Nat.le_of_lt (hs.made j hold)) hle
      · obtain rfl : j = s.adapterIdx := by simpa using hnew
        exact hle

/-- Over a first failure with another code the loop calls `GetDesc1` through a null pointer. -/
theorem enumerationLoop_null {d k : Nat} (hk : s.adapterIdx + d = k) (hfirst : FirstFailure m k)
    (hcode : m.enumAdapters1 k ≠ dxgiErrorNotFound) :
    (enumerationLoop m (d + 1) s).1 = .nullCall := by
  induction d generalizing s with
  | zero =>
    obtain rfl : s.adapterIdx = k := hk
    simp [enumerationLoop, hcode, hfirst.1]
  | succ d ih =>
    have hsucc := hfirst.2 s.adapterIdx (hk ▸ Nat.lt_add_of_pos_right (Nat.succ_pos d))
    have hmore := ne_notFound hsucc
    rw [enumerationLoop]
    simp only [hmore, hsucc, if_true, if_false, Option.isNone_some, Bool.false_eq_true]
    refine ih ?_
    rw [add_adapterIdx, ← hk]
    exact Nat.add_right_comm s.adapterIdx 1 d

end AdapterLemmas

open AdapterLemmas

/-- For any sequence of codes: after any number of rounds the loop is safe, exactly when the first
code that is no success is `DXGI_ERROR_NOT_FOUND`. -/
theorem enumeration_safe_iff :
    (∀ rounds, EnumerationSafe m rounds (enumerationLoop m rounds {}).1
        (enumerationLoop m rounds {}).2) ↔
      ∀ k, FirstFailure m k → m.enumAdapters1 k = dxgiErrorNotFound := by
  constructor
  · intro hsafe k hfirst
    refine Decidable.byContradiction fun hcode => ?_
    have hnull := enumerationLoop_null (s := {}) (Nat.zero_add k) hfirst hcode
    have hended := ((hsafe (k + 1)).ends k (Nat.lt_succ_self k) hfirst.1).1
    rw [hnull] at hended
    cases hended
  · intro hfirst rounds
    have hsafe := enumerationLoop_safe hfirst rounds sound_start
    rw [Nat.zero_add] at hsafe
    exact hsafe

/-- Every call fails, and not with the code that the loop tests for: `E_FAIL`. -/
def noAdapters : Machine :=
  { threeAdapters with enumAdapters1 := fun _ => Int32.ofBitVec 0x80004005#32 }

/-- The first call fails, and the loop describes an adapter all the same. -/
theorem enumeration_null :
    enumerationLoop noAdapters 1 {} =
        (.nullCall, { adapterIdx := 1, calls := [.enumAdapters1 0, .getDesc1 none] }) ∧
      ¬ EnumerationSafe noAdapters 1 (enumerationLoop noAdapters 1 {}).1
        (enumerationLoop noAdapters 1 {}).2 := by
  have hrun : enumerationLoop noAdapters 1 {} =
      (.nullCall, { adapterIdx := 1, calls := [.enumAdapters1 0, .getDesc1 none] }) := by decide
  refine ⟨hrun, fun hsafe => ?_⟩
  rw [hrun] at hsafe
  obtain ⟨k, hk, -⟩ := hsafe.keeps.described none (by decide)
  cases hk

/-- The enumeration stands where the loop does, with the same lists when it has ended. -/
def Agrees : Except Stuck (List Nat × List Nat × List Call) → LoopExit × LoopState → Prop
  | .ok (hw, sw, _), (exit, s) =>
    exit = .ended ∧ s.hardwareAdapters = hw.map some ∧ s.softwareAdapters = sw.map some
  | .error .nullPointer, (exit, _) => exit = .nullCall
  | .error .unfinished, (exit, _) => exit = .goesOn

/-- The enumeration of `InitializeDevice` is this loop, as far as it gets. -/
theorem enumerateAdapters_agrees {fuel i : Nat} {hw sw : List Nat} {s : LoopState}
    (hi : s.adapterIdx = i) (hhw : s.hardwareAdapters = hw.map some)
    (hsw : s.softwareAdapters = sw.map some) :
    Agrees (enumerateAdapters m fuel i hw sw) (enumerationLoop m fuel s) := by
  induction fuel generalizing i hw sw s with
  | zero => rfl
  | succ fuel ih =>
    subst hi
    simp only [enumerateAdapters, enumerationLoop, failed_eq]
    by_cases hend : m.enumAdapters1 s.adapterIdx = dxgiErrorNotFound
    · simp only [hend, if_true]
      exact ⟨rfl, hhw, hsw⟩
    · cases hsucc : succeeded (m.enumAdapters1 s.adapterIdx) with
      | false => simp [Agrees, hend]
      | true =>
        simp only [hend, if_false, if_true, Bool.not_true, Bool.false_eq_true, Option.isNone_some]
        have hrest : Agrees
            (if m.adapterFlags s.adapterIdx &&& dxgiAdapterFlagSoftware ≠ 0 then
              enumerateAdapters m fuel (s.adapterIdx + 1) hw (sw ++ [s.adapterIdx])
            else enumerateAdapters m fuel (s.adapterIdx + 1) (hw ++ [s.adapterIdx]) sw)
            (enumerationLoop m fuel ((s.describe (some s.adapterIdx)).add (some s.adapterIdx)
              (m.adapterFlags s.adapterIdx))) := by
          split
          · next hflag =>
            exact ih (add_adapterIdx _ _) (by simp [LoopState.add, LoopState.describe, hflag, hhw])
              (by simp [LoopState.add, LoopState.describe, hflag, hsw])
          · next hflag =>
            exact ih (add_adapterIdx _ _) (by simp [LoopState.add, LoopState.describe, hflag, hhw])
              (by simp [LoopState.add, LoopState.describe, hflag, hsw])
        -- the calls of this round do not matter to the agreement
        revert hrest
        generalize (if m.adapterFlags s.adapterIdx &&& dxgiAdapterFlagSoftware ≠ 0 then
          enumerateAdapters m fuel (s.adapterIdx + 1) hw (sw ++ [s.adapterIdx])
          else enumerateAdapters m fuel (s.adapterIdx + 1) (hw ++ [s.adapterIdx]) sw) = rest
        intro hrest
        cases rest with
        | error stuck => exact hrest
        | ok r => exact hrest

end FlavoEngine.Renderer
