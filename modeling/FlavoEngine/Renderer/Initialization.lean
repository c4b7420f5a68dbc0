import FlavoEngine.Lib.Checks
import FlavoEngine.Renderer.Adapters

/-!
# The first failure of the initialization

`RendererDX12::Initialize` (`renderer/source/renderer_dx12/renderer_dx12.cpp`) tests a fixed
sequence of return codes in seven stages and ends at the first failure.

Results:
1. `initialize_checked`: over any machine, `Initialize` reports the first check that fails with the
   context of its stage, and has then made no call and written no field of a later stage; without a
   failure it leaves every array filled in.
-/

namespace FlavoEngine.Renderer

open FlavoEngine.Core
open FlavoEngine.Core.Text
open FlavoEngine.Lib
open Dx12Lemmas
open AdapterLemmas

/-! ## Stages and checks -/

/-- The stages of `Initialize`. -/
inductive StageName where
  | device
  | commandQueue
  | swapChain
  | rtvDescriptorHeap
  | renderTargets
  | commandAllocators
  | commandLists
deriving DecidableEq

namespace StageName

def index : StageName → Nat
  | device => 0
  | commandQueue => 1
  | swapChain => 2
  | rtvDescriptorHeap => 3
  | renderTargets => 4
  | commandAllocators => 5
  | commandLists => 6

/-- The context that `RETURN_ON_ERROR` adds. -/
def context : StageName → Text
  | device => "Device initialization".toList
  | commandQueue => "Command queue initialization".toList
  | swapChain => "Swapchain initialization".toList
  | rtvDescriptorHeap => "RTV descriptor heap initialization".toList
  | renderTargets => "Render targets initialization".toList
  | commandAllocators => "Command allocators initialization".toList
  | commandLists => "Command lists initialization".toList

/-- The line of `RETURN_ON_ERROR`. -/
def line : StageName → UInt32
  | device => 254
  | commandQueue => 257
  | swapChain => 260
  | rtvDescriptorHeap => 263
  | renderTargets => 266
  | commandAllocators => 269
  | commandLists => 272

/-- The fields that the stage writes have their initial values. -/
def Untouched (d : RendererDX12Data) : StageName → Prop
  | device => d.device = none
  | commandQueue => d.cmdQueue = none
  | swapChain => d.swapchain = none ∧ d.currentRtvIdx = 0
  | rtvDescriptorHeap => d.rtvDescHeap = none ∧ d.rtvDescSize = 0
  | renderTargets => d.renderTargets = List.replicate numFrameBuffers.toNat none
  | commandAllocators => d.cmdAllocators = List.replicate numFrameBuffers.toNat none
  | commandLists => d.cmdLists = List.replicate numRenderThreads.toNat none

end StageName

/-- The stage that makes a call. A factory is created in the first stage and again in the third. -/
def Call.stage : Call → StageName
  | .createDXGIFactory1 => .device
  | .enumAdapters1 _ => .device
  | .getDesc1 _ => .device
  | .d3d12CreateDevice _ => .device
  | .createCommandQueue _ => .commandQueue
  | .createSwapChain _ _ _ => .swapChain
  | .getCurrentBackBufferIndex _ => .swapChain
  | .createDescriptorHeap _ _ => .rtvDescriptorHeap
  | .getDescriptorHandleIncrementSize _ => .rtvDescriptorHeap
  | .getCPUDescriptorHandleForHeapStart _ => .renderTargets
  | .getBuffer _ _ => .renderTargets
  | .createRenderTargetView _ _ _ => .renderTargets
  | .createCommandAllocator _ => .commandAllocators
  | .createCommandList _ _ => .commandLists
  | .close _ => .commandLists

/-- The calls of a stage, in order. -/
def callsOf (s : StageName) (calls : List Call) : List Call :=
  calls.filter fun call => call.stage = s

/-- What `Initialize` tests. -/
inductive Check where
  | factory
  | device
  | commandQueue
  | swapChainFactory
  | swapChain
  | descriptorHeap
  | buffer (i : Nat)
  | allocator (i : Nat)
  | list (i : Nat)
deriving DecidableEq

variable (file : SourceFile) (m : Machine)

namespace Check

def stage : Check → StageName
  | factory => .device
  | device => .device
  | commandQueue => .commandQueue
  | swapChainFactory => .swapChain
  | swapChain => .swapChain
  | descriptorHeap => .rtvDescriptorHeap
  | buffer _ => .renderTargets
  | allocator _ => .commandAllocators
  | list _ => .commandLists

def Passes : Check → Prop
  | factory => succeeded m.createDXGIFactory1 = true
  | device => m.FindsDevice
  | commandQueue => succeeded m.createCommandQueue.hr = true
  | swapChainFactory => succeeded m.createDXGIFactory1ForSwapChain = true
  | swapChain => succeeded m.createSwapChain.hr = true
  | descriptorHeap => succeeded m.createDescriptorHeap.hr = true
  | buffer i => succeeded (m.getBuffer i).hr = true
  | allocator i => succeeded (m.createCommandAllocator i).hr = true
  | list i => succeeded (m.createCommandList i).hr = true

/-- The line of `make_error`. -/
def line : Check → UInt32
  | factory => 56
  | device => 112
  | commandQueue => 125
  | swapChainFactory => 157
  | swapChain => 162
  | descriptorHeap => 180
  | buffer _ => 203
  | allocator _ => 221
  | list _ => 234

/-- The message of `make_error`. -/
def message : Check → Text
  | factory => format "CreateDXGIFactory1 failed with code: {}".toList [hrText m.createDXGIFactory1]
  | device => "Couldn't find any compatible adapter".toList
  | commandQueue =>
    format "CreateCommandQueue failed with code: {}".toList [hrText m.createCommandQueue.hr]
  | swapChainFactory =>
    format "CreateDXGIFactory1 failed with code: {}".toList
      [hrText m.createDXGIFactory1ForSwapChain]
  | swapChain => format "CreateSwapChain failed with code: {}".toList [hrText m.createSwapChain.hr]
  | descriptorHeap =>
    format "CreateDescriptorHeap failed with code: {}".toList [hrText m.createDescriptorHeap.hr]
  | buffer i =>
    format "IDXGISwapChain3::GetBuffer failed with code: {} for buffer: {}".toList
      [hrText (m.getBuffer i).hr, decimal i]
  | allocator i =>
    format "CreateCommandAllocator failed with code: {} for allocator: {}".toList
      [hrText (m.createCommandAllocator i).hr, decimal i]
  | list i =>
    format "CreateCommandList failed with code: {} for list: {}".toList
      [hrText (m.createCommandList i).hr, decimal i]

/-- What the stage returns. -/
def failure (c : Check) : Res :=
  file.error c.line (c.message m)

/-- What `Initialize` returns: the message of the failing call, then the context of its stage. -/
def reported (c : Check) : Res :=
  .ofErr { value := { mData := (), mMessages :=
    [makeErrorMessage (c.message m) (file.line c.line),
      makeErrorMessage c.stage.context (file.line c.stage.line)] } }

end Check

/-- The checks in the order in which they are made. -/
def checks : List Check :=
  [.factory, .device, .commandQueue, .swapChainFactory, .swapChain, .descriptorHeap] ++
    (List.range numFrameBuffers.toNat).map .buffer ++
    (List.range numFrameBuffers.toNat).map .allocator ++
    (List.range numRenderThreads.toNat).map .list

/-- Nothing of a later stage has been done. -/
structure Reached (s : StageName) (d : RendererDX12Data) (calls : List Call) : Prop where
  noLaterCall : ∀ call ∈ calls, call.stage.index ≤ s.index
  factories : calls.count .createDXGIFactory1 =
    if s.index < StageName.swapChain.index then 1 else 2
  untouched : ∀ later : StageName, s.index < later.index → later.Untouched d

/-- The handle of a render target view. -/
def viewHandle (d : RendererDX12Data) (i : Nat) : UInt64 :=
  m.getCPUDescriptorHandleForHeapStart + UInt64.ofNat i * d.rtvDescSize

/-- The queue and its swap chain, with the buffer that is drawn to first. -/
structure SwapChainMade (d : RendererDX12Data) : Prop where
  cmdQueue : d.cmdQueue = some m.createCommandQueue.obj
  swapchain : d.swapchain = some m.createSwapChain.obj
  currentRtvIdx : d.currentRtvIdx = m.getCurrentBackBufferIndex.toUInt8

/-- Render target `i` is buffer `i` of the swap chain, with its view at the `i`th handle of the
heap. -/
structure TargetsMade (d : RendererDX12Data) (calls : List Call) : Prop where
  swapChain : SwapChainMade m d
  rtvDescSize : d.rtvDescSize = m.getDescriptorHandleIncrementSize.toUInt64
  renderTargets : d.renderTargets =
    (List.range numFrameBuffers.toNat).map fun i => some (m.getBuffer i).obj
  views : ∃ heap chain device, d.rtvDescHeap = some heap ∧ d.swapchain = some chain ∧
    d.device = some device ∧
    callsOf .renderTargets calls = .getCPUDescriptorHandleForHeapStart heap ::
      (List.range numFrameBuffers.toNat).flatMap fun i =>
        [.getBuffer chain i,
          .createRenderTargetView device (some (m.getBuffer i).obj) (viewHandle m d i)]

/-- The fields and the arrays are filled in; each command list is created on the first allocator and
closed before the next one is created. -/
structure Complete (d : RendererDX12Data) (calls : List Call) : Prop where
  targets : TargetsMade m d calls
  cmdAllocators : d.cmdAllocators =
    (List.range numFrameBuffers.toNat).map fun i => some (m.createCommandAllocator i).obj
  cmdLists : d.cmdLists =
    (List.range numRenderThreads.toNat).map fun i => some (m.createCommandList i).obj
  recorded : ∃ device, d.device = some device ∧
    callsOf .commandLists calls =
      (List.range numRenderThreads.toNat).flatMap fun i =>
        [.createCommandList device (d.cmdAllocators.getD 0 none),
          .close (m.createCommandList i).obj]

namespace InitializationLemmas

/-! The texts. -/

theorem not_mem_hrText (hr : HResult) : '\x00' ∉ hrText hr :=
  TextLemmas.not_mem_decimalInt (by decide) (by decide) _

/-- A message with the code of a call. -/
theorem not_mem_code {fmt : Text} (hfmt : '\x00' ∉ fmt) (hr : HResult) :
    '\x00' ∉ format fmt [hrText hr] := by
  refine TextLemmas.not_mem_format hfmt fun arg harg => ?_
  rw [List.mem_singleton.mp harg]
  exact not_mem_hrText hr

/-- A message with the code of a call and the index of a loop. -/
theorem not_mem_indexed {fmt : Text} (hfmt : '\x00' ∉ fmt) (hr : HResult) (i : Nat) :
    '\x00' ∉ format fmt [hrText hr, decimal i] := by
  refine TextLemmas.not_mem_format hfmt fun arg harg => ?_
  rcases List.mem_cons.mp harg with rfl | harg
  · exact not_mem_hrText hr
  · rw [List.mem_singleton.mp harg]
    exact TextLemmas.not_mem_decimal (by decide) i

theorem not_mem_message (c : Check) : '\x00' ∉ c.message m := by
  cases c with
  | factory => exact not_mem_code (by simp) _
  | device => exact (by simp : '\x00' ∉ "Couldn't find any compatible adapter".toList)
  | commandQueue => exact not_mem_code (by simp) _
  | swapChainFactory => exact not_mem_code (by simp) _
  | swapChain => exact not_mem_code (by simp) _
  | descriptorHeap => exact not_mem_code (by simp) _
  | buffer i => exact not_mem_indexed (by simp) _ i
  | allocator i => exact not_mem_indexed (by simp) _ i
  | list i => exact not_mem_indexed (by simp) _ i

theorem format_context (s : StageName) : format s.context [] = s.context := by
  cases s <;> decide

theorem failure_eq (c : Check) : c.failure file m =
    .ofErr { value := { mData := (), mMessages :=
      [makeErrorMessage (c.message m) (file.line c.line)] } } := by
  unfold Check.failure SourceFile.error
  congr 1
  exact congrArg Err.mk (makeError_messages () (not_mem_message m c) _)

/-- `RETURN_ON_ERROR` adds the context of the stage. -/
theorem returnOnError_failure (c : Check) :
    file.returnOnError c.stage.line c.stage.context (c.failure file m) =
      some (c.reported file m) := by
  rw [failure_eq]
  simp only [SourceFile.returnOnError, returnOnError, Result.ofErr, ErrorType.addMessage,
    format_context]
  rfl

theorem failure_not_ok (c : Check) : ¬ IsOk (c.failure file m) :=
  fun h => nomatch h

/-! The calls and the fields. -/

theorem callsOf_append (s : StageName) (calls calls' : List Call) :
    callsOf s (calls ++ calls') = callsOf s calls ++ callsOf s calls' :=
  List.filter_append ..

theorem callsOf_self {s : StageName} {calls : List Call} (h : ∀ call ∈ calls, call.stage = s) :
    callsOf s calls = calls :=
  List.filter_eq_self.mpr fun call hcall => decide_eq_true (h call hcall)

theorem callsOf_other {s s' : StageName} {calls : List Call} (hne : s ≠ s')
    (h : ∀ call ∈ calls, call.stage = s) : callsOf s' calls = [] :=
  List.filter_eq_nil_iff.mpr fun call hcall => by
    rw [h call hcall, decide_eq_true_iff]
    exact hne

variable {m} {d d' : RendererDX12Data} {before calls : List Call} {s s' : StageName}

/-- A later stage has made no call yet. -/
theorem callsOf_later (h : Reached s d before) (hlater : s.index < s'.index) :
    callsOf s' before = [] := by
  refine List.filter_eq_nil_iff.mpr fun call hcall => ?_
  rw [decide_eq_true_iff]
  intro heq
  have hle := h.noLaterCall call hcall
  rw [heq] at hle
  exact absurd hlater (Nat.not_lt.mpr hle)

/-- The next stage makes its calls and writes its fields. -/
theorem Reached.next (h : Reached s d before) (hindex : s'.index = s.index + 1)
    (hcalls : ∀ call ∈ calls, call.stage.index ≤ s'.index)
    (hcount : calls.count .createDXGIFactory1 = if s' = .swapChain then 1 else 0)
    (hfields : ∀ later : StageName, s'.index < later.index → later.Untouched d →
      later.Untouched d') :
    Reached s' d' (before ++ calls) := by
  have hlt : s.index < s'.index := hindex ▸ Nat.lt_succ_self _
  refine ⟨fun call hcall => ?_, ?_, fun later hlater => ?_⟩
  · rcases List.mem_append.mp hcall with hold | hnew
    · exact Nat.le_trans (h.noLaterCall call hold) (Nat.le_of_lt hlt)
    · exact hcalls call hnew
  · rw [List.count_append, h.factories, hcount]
    cases s' <;> cases s <;> cases hindex <;> rfl
  · exact hfields later hlater (h.untouched later (Nat.lt_trans hlt hlater))

/-- The next stage makes only calls of its own. -/
theorem Reached.own (h : Reached s d before) (hindex : s'.index = s.index + 1)
    (hne : s' ≠ .swapChain) (hcalls : ∀ call ∈ calls, call.stage = s')
    (hfields : ∀ later : StageName, s'.index < later.index → later.Untouched d →
      later.Untouched d') :
    Reached s' d' (before ++ calls) := by
  refine Reached.next h hindex
    (fun call hcall => Nat.le_of_eq (congrArg StageName.index (hcalls call hcall))) ?_ hfields
  rw [if_neg hne]
  refine List.count_eq_zero.mpr fun hmem => ?_
  rw [← hcalls _ hmem] at hindex
  exact absurd hindex.symm (Nat.succ_ne_zero s.index)

variable (m)

/-- How a stage ends at a check of its own. -/
def Stops (s : StageName) (c : Check) (r : Res) (d : RendererDX12Data) (calls : List Call) : Prop :=
  c.stage = s ∧ r = c.failure file m ∧ Reached s d calls

/-- How `Initialize` ends at a check. -/
def Ends (c : Check) (r : Res) (d : RendererDX12Data) (calls : List Call) : Prop :=
  r = c.reported file m ∧ Reached c.stage d calls

/-- A stage under its `RETURN_ON_ERROR`, and the stages after it. -/
theorem stage_andThen {pre mid post : RendererDX12Data → List Call → Prop}
    {stage rest : DataStage} {cs cs' : List Check} (s : StageName)
    (hs : Checked IsOk (Check.Passes m) (Stops file m s) pre stage mid cs)
    (hrest : Checked IsOk (Check.Passes m) (Ends file m) mid rest post cs') :
    Checked IsOk (Check.Passes m) (Ends file m) pre
      (stage.andThen (file.returnOnError s.line s.context) rest) post (cs ++ cs') := by
  refine hs.andThen (exits file s.line s.context) (fun c r r' d calls hexit hstop => ?_) hrest
  obtain ⟨rfl, rfl, hreached⟩ := hstop
  rw [returnOnError_failure] at hexit
  exact ⟨(Option.some.inj hexit).symm, hreached⟩

/-! The stages. -/

/-- All calls of `InitializeDevice`, of which one creates the factory. -/
theorem reached_device {d : RendererDX12Data} {calls : List Call}
    (hcalls : ∀ call ∈ calls, call.stage = .device ∧ call ≠ .createDXGIFactory1)
    (hfields : ∀ later : StageName, StageName.device.index < later.index → later.Untouched d) :
    Reached .device d (.createDXGIFactory1 :: calls) := by
  refine ⟨fun call hcall => ?_, ?_, hfields⟩
  · rcases List.mem_cons.mp hcall with rfl | hrest
    · exact Nat.le_refl _
    · exact Nat.le_of_eq (congrArg StageName.index (hcalls call hrest).1)
  · rw [List.count_cons_self, List.count_eq_zero.mpr fun hmem => (hcalls _ hmem).2 rfl]
    rfl

theorem stage_deviceCalls (n : Nat) :
    ∀ call ∈ enumerationCalls n ++ (tried m.yields (m.adapterOrder n)).map Call.d3d12CreateDevice,
      call.stage = .device ∧ call ≠ .createDXGIFactory1 := by
  intro call hcall
  rcases List.mem_append.mp hcall with henum | htried
  · rcases List.mem_append.mp henum with hround | hlast
    · obtain ⟨k, -, hk⟩ := List.mem_flatMap.mp hround
      rcases List.mem_cons.mp hk with rfl | hk
      · exact ⟨rfl, fun h => Call.noConfusion h⟩
      · rw [List.mem_singleton.mp hk]
        exact ⟨rfl, fun h => Call.noConfusion h⟩
    · rw [List.mem_singleton.mp hlast]
      exact ⟨rfl, fun h => Call.noConfusion h⟩
  · obtain ⟨k, -, rfl⟩ := List.mem_map.mp htried
    exact ⟨rfl, fun h => Call.noConfusion h⟩

theorem untouched_device (device : Option Handle) (later : StageName)
    (hlater : StageName.device.index < later.index) :
    later.Untouched { device } := by
  cases later with
  | device => exact absurd hlater (Nat.lt_irrefl _)
  | swapChain => exact ⟨rfl, rfl⟩
  | rtvDescriptorHeap => exact ⟨rfl, rfl⟩
  | _ => rfl

theorem device_checked {n fuel : Nat} (hn : m.Enumerates n) (hfuel : n < fuel) :
    Checked IsOk (Check.Passes m) (Stops file m .device) (fun d calls => d = {} ∧ calls = [])
      (deviceStage file m fuel) (fun d calls => Reached .device d calls) [.factory, .device] := by
  refine ⟨fun hfactory => ⟨fun hfound => ?_, fun hfound => ?_⟩, fun hfactory => ?_⟩
  · rintro d before ⟨rfl, rfl⟩
    have hrun := initializeDevice_eq file m hfactory hn hfuel
    rw [if_pos ((findsDevice_iff m hn).mp hfound)] at hrun
    exact ⟨_, _, _, Stage.writes_run hrun, rfl,
      reached_device (stage_deviceCalls m n) (untouched_device _)⟩
  · rintro d before ⟨rfl, rfl⟩
    have hrun := initializeDevice_eq file m hfactory hn hfuel
    rw [if_neg fun h => hfound ((findsDevice_iff m hn).mpr h)] at hrun
    exact ⟨_, _, _, Stage.writes_run hrun, failure_not_ok file m .device, rfl, rfl,
      reached_device (stage_deviceCalls m n) (untouched_device _)⟩
  · rintro d before ⟨rfl, rfl⟩
    exact ⟨_, _, _, Stage.writes_run (initializeDevice_factory file m hfactory),
      failure_not_ok file m .factory, rfl, rfl,
      reached_device (fun call hcall => absurd hcall List.not_mem_nil) (untouched_device _)⟩

theorem reached_commandQueue (h : Reached .device d before) (queue : Option Handle) (dev : Handle) :
    Reached .commandQueue { d with cmdQueue := queue } (before ++ [Call.createCommandQueue dev]) := by
  refine Reached.own h rfl (by decide) (by simp [Call.stage]) fun later hlater hkept => ?_
  cases later <;> first | exact hkept | exact absurd hlater (by decide)

theorem commandQueue_checked :
    Checked IsOk (Check.Passes m) (Stops file m .commandQueue)
      (fun d calls => Reached .device d calls ∧ HasDevice d) (commandQueueStage file m)
      (fun d calls => Reached .commandQueue d calls ∧ d.cmdQueue = some m.createCommandQueue.obj)
      [.commandQueue] := by
  refine ⟨fun (hpass : succeeded _ = true) => ?_, fun (hfail : ¬ succeeded _ = true) => ?_⟩
  · rintro d before ⟨hreached, hdevice⟩
    obtain ⟨dev, hdev⟩ := Option.isSome_iff_exists.mp hdevice.2
    have hrun : initializeCommandQueue file m d.device =
        .ok (success, m.createCommandQueue.ptr, [.createCommandQueue dev]) := by
      simp [initializeCommandQueue, hdev, failed_eq, hpass]
    exact ⟨_, _, _, Stage.writes_run hrun, rfl, reached_commandQueue hreached _ dev, if_pos hpass⟩
  · rintro d before ⟨hreached, hdevice⟩
    obtain ⟨dev, hdev⟩ := Option.isSome_iff_exists.mp hdevice.2
    have hrun : initializeCommandQueue file m d.device =
        .ok (Check.commandQueue.failure file m, m.createCommandQueue.ptr,
          [.createCommandQueue dev]) := by
      simp [initializeCommandQueue, hdev, failed_eq, hfail]
      rfl
    exact ⟨_, _, _, Stage.writes_run hrun, failure_not_ok file m .commandQueue, rfl, rfl,
      reached_commandQueue hreached _ dev⟩

/-- The stage of the swap chain creates a second factory. -/
theorem reached_swapChain (h : Reached .commandQueue d before) (out : Option Handle × UInt8)
    (hcalls : ∀ call ∈ calls, call.stage = .swapChain) :
    Reached .swapChain { d with swapchain := out.1, currentRtvIdx := out.2 }
      (before ++ Call.createDXGIFactory1 :: calls) := by
  refine Reached.next h rfl (fun call hcall => ?_) ?_ fun later hlater hkept => ?_
  · rcases List.mem_cons.mp hcall with rfl | hrest
    · exact Nat.zero_le _
    · exact Nat.le_of_eq (congrArg StageName.index (hcalls call hrest))
  · have hnone : .createDXGIFactory1 ∉ calls := fun hmem => nomatch hcalls _ hmem
    rw [List.count_cons_self, List.count_eq_zero.mpr hnone]
    rfl
  · cases later <;> first | exact hkept | exact absurd hlater (by decide)

theorem swapChain_checked (window : Window) :
    Checked IsOk (Check.Passes m) (Stops file m .swapChain)
      (fun d calls => (Reached .commandQueue d calls ∧
        d.cmdQueue = some m.createCommandQueue.obj) ∧ HasCommandQueue d)
      (swapChainStage file m window)
      (fun d calls => Reached .swapChain d calls ∧ SwapChainMade m d)
      [.swapChainFactory, .swapChain] := by
  refine ⟨fun (hfactory : succeeded _ = true) => ⟨fun (hchain : succeeded _ = true) => ?_,
    fun (hchain : ¬ succeeded _ = true) => ?_⟩, fun (hfactory : ¬ succeeded _ = true) => ?_⟩
  · rintro d before ⟨⟨hreached, hqueue⟩, -⟩
    have hrun : initializeSwapChain file m window numFrameBuffers d.cmdQueue d.swapchain
        d.currentRtvIdx = .ok (success,
          (m.createSwapChain.ptr, m.getCurrentBackBufferIndex.toUInt8),
          [.createDXGIFactory1, .createSwapChain d.cmdQueue window numFrameBuffers,
            .getCurrentBackBufferIndex m.createSwapChain.obj]) := by
      simp [initializeSwapChain, failed_eq, hfactory, hchain]
    exact ⟨_, _, _, Stage.writes_run hrun, rfl, reached_swapChain hreached _ (by simp [Call.stage]),
      hqueue, if_pos hchain, rfl⟩
  · rintro d before ⟨⟨hreached, -⟩, -⟩
    have hrun : initializeSwapChain file m window numFrameBuffers d.cmdQueue d.swapchain
        d.currentRtvIdx = .ok (Check.swapChain.failure file m, (d.swapchain, d.currentRtvIdx),
          [.createDXGIFactory1, .createSwapChain d.cmdQueue window numFrameBuffers]) := by
      simp [initializeSwapChain, failed_eq, hfactory, hchain]
      rfl
    exact ⟨_, _, _, Stage.writes_run hrun, failure_not_ok file m .swapChain, rfl, rfl,
      reached_swapChain hreached _ (by simp [Call.stage])⟩
  · rintro d before ⟨⟨hreached, -⟩, -⟩
    have hrun : initializeSwapChain file m window numFrameBuffers d.cmdQueue d.swapchain
        d.currentRtvIdx = .ok (Check.swapChainFactory.failure file m,
          (d.swapchain, d.currentRtvIdx), [.createDXGIFactory1]) := by
      simp [initializeSwapChain, failed_eq, hfactory]
      rfl
    exact ⟨_, _, _, Stage.writes_run hrun, failure_not_ok file m .swapChainFactory, rfl, rfl,
      reached_swapChain hreached _ (by simp [Call.stage])⟩

theorem reached_rtvDescriptorHeap (h : Reached .swapChain d before) (out : Option Handle × UInt64)
    (hcalls : ∀ call ∈ calls, call.stage = .rtvDescriptorHeap) :
    Reached .rtvDescriptorHeap { d with rtvDescHeap := out.1, rtvDescSize := out.2 }
      (before ++ calls) := by
  refine Reached.own h rfl (by decide) hcalls fun later hlater hkept => ?_
  cases later <;> first | exact hkept | exact absurd hlater (by decide)

theorem rtvDescriptorHeap_checked :
    Checked IsOk (Check.Passes m) (Stops file m .rtvDescriptorHeap)
      (fun d calls => (Reached .swapChain d calls ∧ SwapChainMade m d) ∧ HasSwapChain d)
      (rtvDescriptorHeapStage file m)
      (fun d calls => Reached .rtvDescriptorHeap d calls ∧ SwapChainMade m d ∧
        d.rtvDescSize = m.getDescriptorHandleIncrementSize.toUInt64) [.descriptorHeap] := by
  refine ⟨fun (hpass : succeeded _ = true) => ?_, fun (hfail : ¬ succeeded _ = true) => ?_⟩
  · rintro d before ⟨⟨hreached, hmade⟩, hchain⟩
    obtain ⟨dev, hdev⟩ := Option.isSome_iff_exists.mp hchain.1.1.2
    have hrun : initializeRTVDescriptorHeap file m numFrameBuffers d.device d.rtvDescSize =
        .ok (success, (m.createDescriptorHeap.ptr, m.getDescriptorHandleIncrementSize.toUInt64),
          [.createDescriptorHeap dev numFrameBuffers, .getDescriptorHandleIncrementSize dev]) := by
      simp [initializeRTVDescriptorHeap, hdev, failed_eq, hpass]
    exact ⟨_, _, _, Stage.writes_run hrun, rfl,
      reached_rtvDescriptorHeap hreached _ (by simp [Call.stage]),
      ⟨hmade.cmdQueue, hmade.swapchain, hmade.currentRtvIdx⟩, rfl⟩
  · rintro d before ⟨⟨hreached, hmade⟩, hchain⟩
    obtain ⟨dev, hdev⟩ := Option.isSome_iff_exists.mp hchain.1.1.2
    have hrun : initializeRTVDescriptorHeap file m numFrameBuffers d.device d.rtvDescSize =
        .ok (Check.descriptorHeap.failure file m, (m.createDescriptorHeap.ptr, d.rtvDescSize),
          [.createDescriptorHeap dev numFrameBuffers]) := by
      simp [initializeRTVDescriptorHeap, hdev, failed_eq, hfail]
      rfl
    exact ⟨_, _, _, Stage.writes_run hrun, failure_not_ok file m .descriptorHeap, rfl, rfl,
      reached_rtvDescriptorHeap hreached _ (by simp [Call.stage])⟩

/-! The loops. -/

section Loop

/-- The body of a loop makes one check for each index. -/
structure MakesCheck {V : Type} (s : StageName) (check : Nat → Check)
    (body : Nat → V → Res × Option Handle × V × List Call) : Prop where
  stage : ∀ k, (check k).stage = s
  calls : ∀ k v, ∀ call ∈ (body k v).2.2.2, call.stage = s
  isOk : ∀ k v, (body k v).1.isOk = true ↔ (check k).Passes m
  failure : ∀ k v, ¬ (check k).Passes m → (body k v).1 = (check k).failure file m

variable {m} {V : Type} {check : Nat → Check}
variable {body : Nat → V → Res × Option Handle × V × List Call}
variable {slots : List (Option Handle)} {n : Nat}

theorem loop_calls (h : MakesCheck file m s check body) (v : V) :
    ∀ call ∈ (slotLoop Result.isOk success body 0 v slots).2.2, call.stage = s := by
  intro call hcall
  obtain ⟨k, v', hk⟩ := slotLoop_calls _ _ _ call hcall
  exact h.calls k v' call hk

/-- Every check passes, so the loop fills in the array. -/
theorem loop_done {v : Nat → V} {a : Nat → Option Handle} {calls : Nat → List Call}
    (hlen : slots.length = n)
    (hround : ∀ k, (check k).Passes m → body k (v k) = (success, a k, v (k + 1), calls k))
    (hall : ∀ c ∈ (List.range n).map check, c.Passes m) :
    slotLoop Result.isOk success body 0 (v 0) slots =
      (success, (List.range n).map a, (List.range n).flatMap calls) := by
  have hpass : ∀ k, k < n → (check k).Passes m := fun k hk =>
    hall (check k) (List.mem_map_of_mem (List.mem_range.mpr hk))
  rw [slotLoop_done success_isOk slots fun k _ hk => hround k (hpass k (by simpa [hlen] using hk)),
    hlen, List.range_eq_range']

/-- A check fails, so the loop ends at the first that does. -/
theorem loop_stops (h : MakesCheck file m s check body) (hlen : slots.length = n) (v : V)
    {c : Check} (hc : FirstFailing (Check.Passes m) ((List.range n).map check) c)
    (hreached : Reached s d calls) :
    ¬ IsOk (slotLoop Result.isOk success body 0 v slots).1 ∧
      Stops file m s c (slotLoop Result.isOk success body 0 v slots).1 d calls := by
  obtain ⟨j, rfl, hj⟩ := hc.of_map
  rw [List.range_eq_range', ← hlen] at hj
  obtain ⟨v', hv'⟩ := slotLoop_first h.isOk slots v hj
  rw [hv', h.failure j v' hj.mem.2]
  exact ⟨failure_not_ok file m (check j), h.stage j, rfl, hreached⟩

end Loop

theorem renderTargetRound_ok {size : UInt64} {chain dev i : Nat} {handle : UInt64}
    (h : succeeded (m.getBuffer i).hr = true) :
    renderTargetRound file m size chain dev i handle =
      (success, some (m.getBuffer i).obj, offsetHandle handle size.toUInt32,
        [.getBuffer chain i, .createRenderTargetView dev (some (m.getBuffer i).obj) handle]) := by
  simp [renderTargetRound, failed_eq, Created.ptr, h]

/-- A round checks `GetBuffer`. -/
theorem renderTargetRound_makes (size : UInt64) (chain dev : Nat) :
    MakesCheck file m .renderTargets .buffer (renderTargetRound file m size chain dev) where
  stage _ := rfl
  calls i handle := by
    cases hfail : failed (m.getBuffer i).hr <;> simp [renderTargetRound, hfail, Call.stage]
  isOk i handle := Bool.eq_iff_iff.mp (renderTargetRound_isOk ..).1
  failure i handle h := by
    have hnot : succeeded (m.getBuffer i).hr = false := Bool.eq_false_iff.mpr h
    simp [renderTargetRound, failed_eq, hnot]
    rfl

/-- The handle moves by the size of a descriptor. -/
theorem offsetHandle_eq (start : UInt64) (size : UInt32) (k : Nat) :
    offsetHandle (start + UInt64.ofNat k * size.toUInt64) size =
      start + UInt64.ofNat (k + 1) * size.toUInt64 := by
  unfold offsetHandle
  rw [UInt64.ofNat_add, UInt64.add_mul, UInt64.add_assoc]
  congr 2
  exact (UInt64.one_mul _).symm

/-- The loop over the render targets when every buffer is there. -/
theorem renderTargetLoop_done {start : UInt64} {size : UInt32} {chain dev n : Nat}
    {slots : List (Option Handle)} (hlen : slots.length = n)
    (hall : ∀ c ∈ (List.range n).map Check.buffer, c.Passes m) :
    slotLoop Result.isOk success (renderTargetRound file m size.toUInt64 chain dev) 0 start slots =
      (success, (List.range n).map fun i => some (m.getBuffer i).obj,
        (List.range n).flatMap fun i =>
          [.getBuffer chain i, .createRenderTargetView dev (some (m.getBuffer i).obj)
            (start + UInt64.ofNat i * size.toUInt64)]) := by
  have hround : ∀ k, (Check.buffer k).Passes m →
      renderTargetRound file m size.toUInt64 chain dev k
        (start + UInt64.ofNat k * size.toUInt64) =
        (success, some (m.getBuffer k).obj, start + UInt64.ofNat (k + 1) * size.toUInt64,
          [.getBuffer chain k, .createRenderTargetView dev (some (m.getBuffer k).obj)
            (start + UInt64.ofNat k * size.toUInt64)]) := by
    intro k hk
    rw [renderTargetRound_ok file m hk, ← offsetHandle_eq]
    simp
  have hloop := loop_done hlen hround hall
  simpa using hloop

theorem renderTargets_checked :
    Checked IsOk (Check.Passes m) (Stops file m .renderTargets)
      (fun d calls => (Reached .rtvDescriptorHeap d calls ∧ SwapChainMade m d ∧
        d.rtvDescSize = m.getDescriptorHandleIncrementSize.toUInt64) ∧ HasHeap d)
      (renderTargetsStage file m)
      (fun d calls => Reached .renderTargets d calls ∧ TargetsMade m d calls)
      ((List.range numFrameBuffers.toNat).map .buffer) := by
  refine .of_run fun d before hpre => ?_
  obtain ⟨⟨hreached, hmade, hsize⟩, hheap⟩ := hpre
  obtain ⟨heap, hheapPtr⟩ := Option.isSome_iff_exists.mp hheap.2
  obtain ⟨chain, hchain⟩ := Option.isSome_iff_exists.mp hheap.1.2
  obtain ⟨dev, hdev⟩ := Option.isSome_iff_exists.mp hheap.1.1.1.2
  have hlen : d.renderTargets.length = numFrameBuffers.toNat := hheap.1.1.1.1.1
  have hbody := renderTargetRound_makes file m d.rtvDescSize chain dev
  generalize hloop : slotLoop Result.isOk success (renderTargetRound file m d.rtvDescSize chain dev)
    0 m.getCPUDescriptorHandleForHeapStart d.renderTargets = loop
  have hrun : initializeRenderTargets file m d.rtvDescSize d.rtvDescHeap d.swapchain d.device
      d.renderTargets =
        .ok (loop.1, loop.2.1, .getCPUDescriptorHandleForHeapStart heap :: loop.2.2) := by
    simp only [initializeRenderTargets, hheapPtr, hchain, hdev, hloop]
  have hcalls : ∀ call ∈ Call.getCPUDescriptorHandleForHeapStart heap :: loop.2.2,
      call.stage = .renderTargets := by
    intro call hcall
    rcases List.mem_cons.mp hcall with rfl | hround
    · rfl
    · rw [← hloop] at hround
      exact loop_calls file hbody _ call hround
  have hnow : Reached .renderTargets { d with renderTargets := loop.2.1 }
      (before ++ Call.getCPUDescriptorHandleForHeapStart heap :: loop.2.2) := by
    refine Reached.own hreached rfl (by decide) hcalls fun later hlater h => ?_
    cases later <;> first | exact h | exact absurd hlater (by decide)
  refine ⟨_, _, _, Stage.writes_run hrun, fun hall => ?_, fun c hc => ?_⟩
  · rw [hsize, renderTargetLoop_done file m hlen hall] at hloop
    subst hloop
    refine ⟨rfl, hnow, ⟨hmade.cmdQueue, hmade.swapchain, hmade.currentRtvIdx⟩, hsize, rfl, heap,
      chain, dev, hheapPtr, hchain, hdev, ?_⟩
    rw [callsOf_append, callsOf_later hreached (by decide), callsOf_self hcalls, List.nil_append]
    simp only [viewHandle, hsize]
  · rw [← hloop] at hnow ⊢
    exact loop_stops file hbody hlen _ hc hnow

/-- The stages after the render targets leave them as they are. -/
theorem targetsMade_append (h : TargetsMade m d before)
    (hcalls : callsOf .renderTargets calls = []) : TargetsMade m d (before ++ calls) := by
  obtain ⟨hmade, hsize, htargets, heap, chain, device, hheap, hchain, hdevice, hviews⟩ := h
  refine ⟨hmade, hsize, htargets, heap, chain, device, hheap, hchain, hdevice, ?_⟩
  rw [callsOf_append, hcalls, List.append_nil, hviews]

theorem commandAllocatorRound_ok {dev i : Nat} (u : Unit)
    (h : succeeded (m.createCommandAllocator i).hr = true) :
    commandAllocatorRound file m dev i u =
      (success, some (m.createCommandAllocator i).obj, (), [.createCommandAllocator dev]) := by
  simp [commandAllocatorRound, failed_eq, Created.ptr, h]

/-- A round checks `CreateCommandAllocator`. -/
theorem commandAllocatorRound_makes (dev : Nat) :
    MakesCheck file m .commandAllocators .allocator (commandAllocatorRound file m dev) where
  stage _ := rfl
  calls i u := by
    cases hfail : failed (m.createCommandAllocator i).hr <;>
      simp [commandAllocatorRound, hfail, Call.stage]
  isOk i u := Bool.eq_iff_iff.mp (commandAllocatorRound_isOk ..).1
  failure i u h := by
    have hnot : succeeded (m.createCommandAllocator i).hr = false := Bool.eq_false_iff.mpr h
    simp [commandAllocatorRound, failed_eq, hnot]
    rfl

theorem commandAllocators_checked :
    Checked IsOk (Check.Passes m) (Stops file m .commandAllocators)
      (fun d calls => (Reached .renderTargets d calls ∧ TargetsMade m d calls) ∧
        HasRenderTargets d)
      (commandAllocatorsStage file m)
      (fun d calls => Reached .commandAllocators d calls ∧ TargetsMade m d calls ∧
        d.cmdAllocators = (List.range numFrameBuffers.toNat).map fun i =>
          some (m.createCommandAllocator i).obj)
      ((List.range numFrameBuffers.toNat).map .allocator) := by
  refine .of_run fun d before hpre => ?_
  obtain ⟨⟨hreached, htargets⟩, hviews⟩ := hpre
  obtain ⟨dev, hdev⟩ := Option.isSome_iff_exists.mp hviews.1.1.1.1.2
  have hlen : d.cmdAllocators.length = numFrameBuffers.toNat := hviews.1.1.1.1.1.2.1
  have hbody := commandAllocatorRound_makes file m dev
  generalize hloop : slotLoop Result.isOk success (commandAllocatorRound file m dev) 0 ()
    d.cmdAllocators = loop
  have hrun : initializeCommandAllocators file m d.device d.cmdAllocators =
      .ok (loop.1, loop.2.1, loop.2.2) := by
    simp only [initializeCommandAllocators, hdev, hloop]
  have hcalls : ∀ call ∈ loop.2.2, call.stage = .commandAllocators := by
    intro call hcall
    rw [← hloop] at hcall
    exact loop_calls file hbody () call hcall
  have hnow : Reached .commandAllocators { d with cmdAllocators := loop.2.1 }
      (before ++ loop.2.2) := by
    refine Reached.own hreached rfl (by decide) hcalls fun later hlater h => ?_
    cases later <;> first | exact h | exact absurd hlater (by decide)
  refine ⟨_, _, _, Stage.writes_run hrun, fun hall => ?_, fun c hc => ?_⟩
  · have hround : ∀ k, (Check.allocator k).Passes m → commandAllocatorRound file m dev k () =
        (success, some (m.createCommandAllocator k).obj, (), [.createCommandAllocator dev]) :=
      fun k hk => commandAllocatorRound_ok file m () hk
    rw [loop_done hlen hround hall] at hloop
    subst hloop
    have hkept := targetsMade_append m htargets (callsOf_other (by decide) hcalls)
    have hmade := hkept.swapChain
    exact ⟨rfl, hnow, ⟨⟨hmade.cmdQueue, hmade.swapchain, hmade.currentRtvIdx⟩, hkept.rtvDescSize,
      hkept.renderTargets, hkept.views⟩, rfl⟩
  · rw [← hloop] at hnow ⊢
    exact loop_stops file hbody hlen () hc hnow

theorem commandListRound_ok {dev i : Nat} {allocator : Option Handle} (u : Unit)
    (h : succeeded (m.createCommandList i).hr = true) :
    commandListRound file m dev allocator i u =
      (success, some (m.createCommandList i).obj, (),
        [.createCommandList dev allocator, .close (m.createCommandList i).obj]) := by
  simp [commandListRound, failed_eq, Created.ptr, h]

/-- A round checks `CreateCommandList`. -/
theorem commandListRound_makes (dev : Nat) (allocator : Option Handle) :
    MakesCheck file m .commandLists .list (commandListRound file m dev allocator) where
  stage _ := rfl
  calls i u := by
    cases hfail : failed (m.createCommandList i).hr <;> simp [commandListRound, hfail, Call.stage]
  isOk i u := Bool.eq_iff_iff.mp (commandListRound_isOk ..).1
  failure i u h := by
    have hnot : succeeded (m.createCommandList i).hr = false := Bool.eq_false_iff.mpr h
    simp [commandListRound, failed_eq, hnot]
    rfl

theorem commandLists_checked :
    Checked IsOk (Check.Passes m) (Stops file m .commandLists)
      (fun d calls => (Reached .commandAllocators d calls ∧ TargetsMade m d calls ∧
        d.cmdAllocators = (List.range numFrameBuffers.toNat).map fun i =>
          some (m.createCommandAllocator i).obj) ∧ HasAllocators d)
      (commandListsStage file m) (Complete m)
      ((List.range numRenderThreads.toNat).map .list) := by
  refine .of_run fun d before hpre => ?_
  obtain ⟨⟨hreached, htargets, hallocators⟩, hset⟩ := hpre
  obtain ⟨dev, hdev⟩ := Option.isSome_iff_exists.mp hset.1.1.1.1.1.2
  have hlen : d.cmdLists.length = numRenderThreads.toNat := hset.1.1.1.1.1.1.2.2
  have hbody := commandListRound_makes file m dev (d.cmdAllocators.getD 0 none)
  generalize hloop : slotLoop Result.isOk success
    (commandListRound file m dev (d.cmdAllocators.getD 0 none)) 0 () d.cmdLists = loop
  have hrun : initializeCommandLists file m d.device (d.cmdAllocators.getD 0 none) d.cmdLists =
      .ok (loop.1, loop.2.1, loop.2.2) := by
    simp only [initializeCommandLists, hdev, hloop]
  have hcalls : ∀ call ∈ loop.2.2, call.stage = .commandLists := by
    intro call hcall
    rw [← hloop] at hcall
    exact loop_calls file hbody () call hcall
  have hnow : Reached .commandLists { d with cmdLists := loop.2.1 } (before ++ loop.2.2) := by
    refine Reached.own hreached rfl (by decide) hcalls fun later hlater h => ?_
    cases later <;> first | exact h | exact absurd hlater (by decide)
  refine ⟨_, _, _, Stage.writes_run hrun, fun hall => ?_, fun c hc => ?_⟩
  · have hround : ∀ k, (Check.list k).Passes m →
        commandListRound file m dev (d.cmdAllocators.getD 0 none) k () =
          (success, some (m.createCommandList k).obj, (),
            [.createCommandList dev (d.cmdAllocators.getD 0 none),
              .close (m.createCommandList k).obj]) :=
      fun k hk => commandListRound_ok file m () hk
    rw [loop_done hlen hround hall] at hloop
    subst hloop
    have hkept := targetsMade_append m htargets (callsOf_other (by decide) hcalls)
    have hmade := hkept.swapChain
    refine ⟨rfl, ⟨⟨hmade.cmdQueue, hmade.swapchain, hmade.currentRtvIdx⟩, hkept.rtvDescSize,
      hkept.renderTargets, hkept.views⟩, hallocators, rfl, dev, hdev, ?_⟩
    rw [callsOf_append, callsOf_later hreached (by decide), callsOf_self hcalls, List.nil_append]
  · rw [← hloop] at hnow ⊢
    exact loop_stops file hbody hlen () hc hnow

/-- The seven stages in sequence. -/
theorem stages_checked {n fuel : Nat} (hn : m.Enumerates n) (hfuel : n < fuel) (window : Window) :
    Checked IsOk (Check.Passes m) (Ends file m) (fun d calls => d = {} ∧ calls = [])
      (initializeStages file m fuel window) (fun d calls => Complete m d calls ∧ HasLists d)
      checks := by
  have hsized : ∀ (d : RendererDX12Data) (calls : List Call), d = {} ∧ calls = [] → Sized d := by
    rintro d calls ⟨rfl, -⟩
    exact ⟨rfl, rfl, rfl⟩
  have hchecks : checks = [Check.factory, Check.device] ++ ([Check.commandQueue] ++
      ([Check.swapChainFactory, Check.swapChain] ++ ([Check.descriptorHeap] ++
        ((List.range numFrameBuffers.toNat).map Check.buffer ++
          ((List.range numFrameBuffers.toNat).map Check.allocator ++
            ((List.range numRenderThreads.toNat).map Check.list ++ [])))))) := rfl
  rw [hchecks]
  exact stage_andThen file m .device
      ((device_checked file m hn hfuel).and_triple hsized (device_triple file m fuel)) <|
    stage_andThen file m .commandQueue
      ((commandQueue_checked file m).and_triple (fun _ _ h => h.2) (commandQueue_triple file m)) <|
    stage_andThen file m .swapChain
      ((swapChain_checked file m window).and_triple (fun _ _ h => h.2)
        (swapChain_triple file m window)) <|
    stage_andThen file m .rtvDescriptorHeap
      ((rtvDescriptorHeap_checked file m).and_triple (fun _ _ h => h.2)
        (rtvDescriptorHeap_triple file m)) <|
    stage_andThen file m .renderTargets
      ((renderTargets_checked file m).and_triple (fun _ _ h => h.2) (renderTargets_triple file m)) <|
    stage_andThen file m .commandAllocators
      ((commandAllocators_checked file m).and_triple (fun _ _ h => h.2)
        (commandAllocators_triple file m)) <|
    stage_andThen file m .commandLists
      ((commandLists_checked file m).and_triple (fun _ _ h => h.2) (commandLists_triple file m)) <|
    Checked.done (show IsOk success from rfl)

end InitializationLemmas

open InitializationLemmas

/-- Over any machine with a finite enumeration `Initialize` returns, and succeeds exactly when some
adapter yields a device and every other checked call succeeds. After an error there is a first check
that failed: the error has its message and the context of its stage, and nothing of a later stage
has been done. A success leaves every array filled in. -/
theorem initialize_checked {n fuel : Nat} (hn : m.Enumerates n) (hfuel : n < fuel)
    (window : Window) :
    ∃ res d calls, initializeStages file m fuel window {} = .ok (res, d, calls) ∧
      (res.isOk = true ↔ m.Works) ∧
      (res.isOk = false → ∃ c, FirstFailing (Check.Passes m) checks c ∧
        res = c.reported file m ∧ Reached c.stage d calls) ∧
      (res.isOk = true → Complete m d calls) := by
  obtain ⟨hdone, hfirst⟩ := Checked.iff_firstFailing.mp (stages_checked file m hn hfuel window)
  rcases FirstFailing.all_or_first (Check.Passes m) checks with hall | ⟨c, hc⟩
  · obtain ⟨res, d, calls, hrun, hok, hcomplete, -⟩ := hdone hall {} [] ⟨rfl, rfl⟩
    exact ⟨res, d, calls, hrun, (initialize_spec file m hrun).1,
      fun h => absurd hok (Bool.eq_false_iff.mp h), fun _ => hcomplete⟩
  · obtain ⟨res, d, calls, hrun, hfail, hends⟩ := hfirst c hc {} [] ⟨rfl, rfl⟩
    exact ⟨res, d, calls, hrun, (initialize_spec file m hrun).1, fun _ => ⟨c, hc, hends⟩,
      fun h => absurd h hfail⟩

theorem initialize_checked_three :
    ∃ res d calls, initializeStages rendererDx12File threeAdapters 4 7 {} = .ok (res, d, calls) ∧
      (res.isOk = true ↔ threeAdapters.Works) ∧
      (res.isOk = false → ∃ c, FirstFailing (Check.Passes threeAdapters) checks c ∧
        res = c.reported rendererDx12File threeAdapters ∧ Reached c.stage d calls) ∧
      (res.isOk = true → Complete threeAdapters d calls) :=
  initialize_checked rendererDx12File threeAdapters threeAdapters_enumerates (by decide) 7

end FlavoEngine.Renderer
