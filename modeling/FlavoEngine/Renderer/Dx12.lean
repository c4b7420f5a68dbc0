import FlavoEngine.Core.Result
import FlavoEngine.Lib.Stages

/-!
# The DX12 renderer

`renderer/source/renderer_dx12/renderer_dx12.cpp`. `RendererDX12::Initialize` creates a
`RendererDX12Data` and fills it in seven stages; each stage calls D3D12 and DXGI and tests the codes
they return.

* What the machine answers is a `Machine`: one answer for each call site and index, since one
  initialisation makes each of these calls at most once.
* A call that creates an interface sets its output pointer when it succeeds and leaves it null when
  it fails.
* A call through a null pointer does not return; the enumeration of the adapters has a fuel, and
  does not return without it.
* The records of the log and the fences, which `Initialize` does not touch, are left out.

Results:
1. `enumerateAdapters_spec`: the enumeration ends at `DXGI_ERROR_NOT_FOUND` with the adapters before
   it, in two lists.
2. `initialize_spec`: `Initialize` succeeds exactly when some adapter yields a device and every
   other checked call succeeds, and then every handle is set.
-/

namespace FlavoEngine.Renderer

open FlavoEngine.Core
open FlavoEngine.Core.Text
open FlavoEngine.Lib

/-! ## The machine -/

/-- A COM object. -/
abbrev Handle := Nat

/-- `HWND`. -/
abbrev Window := Nat

abbrev HResult := Int32

/-- `SUCCEEDED(hr)`. -/
def succeeded (hr : HResult) : Bool :=
  0 ≤ hr

/-- `FAILED(hr)`. -/
def failed (hr : HResult) : Bool :=
  hr < 0

/-- `DXGI_ERROR_NOT_FOUND`. -/
def dxgiErrorNotFound : HResult :=
  Int32.ofBitVec 0x887A0002#32

/-- `DXGI_ADAPTER_FLAG_SOFTWARE`. -/
def dxgiAdapterFlagSoftware : UInt32 :=
  2

/-- The answer of a call that creates an interface. -/
structure Created where
  hr : HResult
  obj : Handle

/-- The output pointer after the call. -/
def Created.ptr (a : Created) : Option Handle :=
  if succeeded a.hr then some a.obj else none

/-- What the D3D12 and DXGI calls of one `Initialize` answer. Adapters are told apart by their index
in the enumeration. -/
structure Machine where
  createDXGIFactory1 : HResult
  enumAdapters1 : Nat → HResult
  /-- `Flags` of the description that `GetDesc1` fills in. -/
  adapterFlags : Nat → UInt32
  d3d12CreateDevice : Nat → Created
  createCommandQueue : Created
  /-- The factory of the swap chain. -/
  createDXGIFactory1ForSwapChain : HResult
  createSwapChain : Created
  getCurrentBackBufferIndex : UInt32
  createDescriptorHeap : Created
  getDescriptorHandleIncrementSize : UInt32
  getCPUDescriptorHandleForHeapStart : UInt64
  getBuffer : Nat → Created
  createCommandAllocator : Nat → Created
  createCommandList : Nat → Created

/-- A call that `Initialize` makes. -/
inductive Call where
  | createDXGIFactory1
  | enumAdapters1 (adapterIdx : Nat)
  | getDesc1 (adapter : Nat)
  | d3d12CreateDevice (adapter : Nat)
  | createCommandQueue (device : Handle)
  | createSwapChain (cmdQueue : Option Handle) (window : Window) (numFrameBuffers : UInt32)
  | getCurrentBackBufferIndex (swapchain : Handle)
  | createDescriptorHeap (device : Handle) (numDescriptors : UInt32)
  | getDescriptorHandleIncrementSize (device : Handle)
  | getCPUDescriptorHandleForHeapStart (rtvDescHeap : Handle)
  | getBuffer (swapchain : Handle) (i : Nat)
  | createRenderTargetView (device : Handle) (renderTarget : Option Handle) (handle : UInt64)
  | createCommandAllocator (device : Handle)
  | createCommandList (device : Handle) (cmdAllocator : Option Handle)
  | close (cmdList : Handle)
deriving DecidableEq

/-- How `Initialize` fails to return. -/
inductive Stuck where
  /-- A call through a null pointer. -/
  | nullPointer
  /-- The enumeration of the adapters has no end within the fuel. -/
  | unfinished
deriving DecidableEq

/-! ## Results -/

/-- `ftl::result<>`. -/
abbrev Res := Result Unit (ErrorType Unit)

/-- `ftl::make_success()`. -/
def success : Res :=
  .ofOk (makeSuccess ())

/-- The path of `renderer_dx12.cpp` in the build. -/
structure SourceFile where
  name : Text
  noNul : '\x00' ∉ name

/-- `source_location::current()` in a line of the file. -/
def SourceFile.line (file : SourceFile) (line : UInt32) : SourceLocation :=
  { fileName := file.name, line, fileName_noNul := file.noNul }

/-- `return ftl::make_error(msg)` in a line of the file. -/
def SourceFile.error (file : SourceFile) (line : UInt32) (msg : Text) : Res :=
  .ofErr (makeError () msg (file.line line))

/-- `RETURN_ON_ERROR(res, context)` in a line of the file. -/
def SourceFile.returnOnError (file : SourceFile) (line : UInt32) (context : Text) (res : Res) :
    Option Res :=
  (Core.returnOnError res context [] (file.line line)).map .ofErr

/-- A return code in a message. -/
def hrText (hr : HResult) : Text :=
  decimalInt hr.toInt

/-! ## `RendererDX12Data` -/

/-- `NUM_FRAME_BUFFERS`. -/
def numFrameBuffers : UInt32 := 3

/-- `NUM_RENDER_THREADS`. -/
def numRenderThreads : UInt32 := 1

/-- `RendererDX12Data` with its initializers. -/
structure RendererDX12Data where
  device : Option Handle := none
  swapchain : Option Handle := none
  currentRtvIdx : UInt8 := 0
  cmdQueue : Option Handle := none
  rtvDescHeap : Option Handle := none
  rtvDescSize : UInt64 := 0
  renderTargets : List (Option Handle) := List.replicate numFrameBuffers.toNat none
  cmdAllocators : List (Option Handle) := List.replicate numFrameBuffers.toNat none
  cmdLists : List (Option Handle) := List.replicate numRenderThreads.toNat none
deriving DecidableEq

/-! ## The stages -/

variable (file : SourceFile) (m : Machine)

/-- The loop over `EnumAdapters1`: the hardware adapters, the software adapters and the calls. A
call that fails with another code than the one the loop tests leaves `adapter` null. -/
def enumerateAdapters : Nat → Nat → List Nat → List Nat →
    Except Stuck (List Nat × List Nat × List Call)
  | 0, _, _, _ => .error .unfinished
  | fuel + 1, adapterIdx, hardwareAdapters, softwareAdapters =>
    let hr := m.enumAdapters1 adapterIdx
    if hr = dxgiErrorNotFound then
      .ok (hardwareAdapters, softwareAdapters, [.enumAdapters1 adapterIdx])
    else if failed hr then .error .nullPointer
    else
      let rest :=
        if m.adapterFlags adapterIdx &&& dxgiAdapterFlagSoftware ≠ 0 then
          enumerateAdapters fuel (adapterIdx + 1) hardwareAdapters
            (softwareAdapters ++ [adapterIdx])
        else
          enumerateAdapters fuel (adapterIdx + 1) (hardwareAdapters ++ [adapterIdx])
            softwareAdapters
      match rest with
      | .error stuck => .error stuck
      | .ok (hw, sw, calls) =>
        .ok (hw, sw, .enumAdapters1 adapterIdx :: .getDesc1 adapterIdx :: calls)

/-- A loop of `try_adapter` calls: whether one succeeded, the device and the calls. -/
def tryAdapters : List Nat → Option Handle → Bool × Option Handle × List Call
  | [], device => (false, device, [])
  | adap :: adapters, _ =>
    let a := m.d3d12CreateDevice adap
    if succeeded a.hr then (true, a.ptr, [.d3d12CreateDevice adap])
    else
      match tryAdapters adapters a.ptr with
      | (found, device, calls) => (found, device, .d3d12CreateDevice adap :: calls)

/-- `InitializeDevice`. -/
def initializeDevice (fuel : Nat) (outDevice : Option Handle) :
    Except Stuck (Res × Option Handle × List Call) :=
  let hr := m.createDXGIFactory1
  if failed hr then
    .ok (file.error 56 (format "CreateDXGIFactory1 failed with code: {}".toList [hrText hr]),
      outDevice, [.createDXGIFactory1])
  else
    match enumerateAdapters m fuel 0 [] [] with
    | .error stuck => .error stuck
    | .ok (hardwareAdapters, softwareAdapters, calls) =>
      match tryAdapters m hardwareAdapters outDevice with
      | (true, device, hwCalls) =>
        .ok (success, device, .createDXGIFactory1 :: calls ++ hwCalls)
      | (false, device, hwCalls) =>
        match tryAdapters m softwareAdapters device with
        | (true, device, swCalls) =>
          .ok (success, device, .createDXGIFactory1 :: calls ++ hwCalls ++ swCalls)
        | (false, device, swCalls) =>
          .ok (file.error 112 "Couldn't find any compatible adapter".toList, device,
            .createDXGIFactory1 :: calls ++ hwCalls ++ swCalls)

/-- `InitializeCommandQueue`. -/
def initializeCommandQueue (device : Option Handle) :
    Except Stuck (Res × Option Handle × List Call) :=
  match device with
  | none => .error .nullPointer
  | some dev =>
    let a := m.createCommandQueue
    if failed a.hr then
      .ok (file.error 125 (format "CreateCommandQueue failed with code: {}".toList [hrText a.hr]),
        a.ptr, [.createCommandQueue dev])
    else .ok (success, a.ptr, [.createCommandQueue dev])

/-- `InitializeSwapChain`, with the two output parameters. -/
def initializeSwapChain (window : Window) (numFrameBuffers : UInt32) (cmdQueue : Option Handle)
    (outSwapChain : Option Handle) (outRtvIdx : UInt8) :
    Except Stuck (Res × (Option Handle × UInt8) × List Call) :=
  let hr := m.createDXGIFactory1ForSwapChain
  if failed hr then
    .ok (file.error 157 (format "CreateDXGIFactory1 failed with code: {}".toList [hrText hr]),
      (outSwapChain, outRtvIdx), [.createDXGIFactory1])
  else
    let a := m.createSwapChain
    if failed a.hr then
      .ok (file.error 162 (format "CreateSwapChain failed with code: {}".toList [hrText a.hr]),
        (outSwapChain, outRtvIdx),
        [.createDXGIFactory1, .createSwapChain cmdQueue window numFrameBuffers])
    else
      .ok (success, (a.ptr, m.getCurrentBackBufferIndex.toUInt8),
        [.createDXGIFactory1, .createSwapChain cmdQueue window numFrameBuffers,
         .getCurrentBackBufferIndex a.obj])

/-- `InitializeRTVDescriptorHeap`, with the two output parameters. -/
def initializeRTVDescriptorHeap (numFrameBuffers : UInt32) (device : Option Handle)
    (outRtvDescSize : UInt64) : Except Stuck (Res × (Option Handle × UInt64) × List Call) :=
  match device with
  | none => .error .nullPointer
  | some dev =>
    let a := m.createDescriptorHeap
    if failed a.hr then
      .ok (file.error 180 (format "CreateDescriptorHeap failed with code: {}".toList [hrText a.hr]),
        (a.ptr, outRtvDescSize), [.createDescriptorHeap dev numFrameBuffers])
    else
      .ok (success, (a.ptr, m.getDescriptorHandleIncrementSize.toUInt64),
        [.createDescriptorHeap dev numFrameBuffers, .getDescriptorHandleIncrementSize dev])

/-- `CD3DX12_CPU_DESCRIPTOR_HANDLE::Offset(1, descriptorIncrementSize)`. -/
def offsetHandle (ptr : UInt64) (descriptorIncrementSize : UInt32) : UInt64 :=
  ptr + descriptorIncrementSize.toUInt64

/-- One round of the loop of `InitializeRenderTargets`; the running variable is
`rtv_desc_heap_handle`. -/
def renderTargetRound (rtvDescSize : UInt64) (swapchain device : Handle) (i : Nat)
    (handle : UInt64) : Res × Option Handle × UInt64 × List Call :=
  let a := m.getBuffer i
  if failed a.hr then
    (file.error 203 (format "IDXGISwapChain3::GetBuffer failed with code: {} for buffer: {}".toList
      [hrText a.hr, decimal i]), a.ptr, handle, [.getBuffer swapchain i])
  else
    (success, a.ptr, offsetHandle handle rtvDescSize.toUInt32,
      [.getBuffer swapchain i, .createRenderTargetView device a.ptr handle])

/-- `InitializeRenderTargets`. -/
def initializeRenderTargets (rtvDescSize : UInt64) (rtvDescHeap swapchain device : Option Handle)
    (outRenderTargets : List (Option Handle)) :
    Except Stuck (Res × List (Option Handle) × List Call) :=
  match rtvDescHeap, swapchain, device with
  | some heap, some chain, some dev =>
    match slotLoop Result.isOk success (renderTargetRound file m rtvDescSize chain dev) 0
      m.getCPUDescriptorHandleForHeapStart outRenderTargets with
    | (res, targets, calls) =>
      .ok (res, targets, .getCPUDescriptorHandleForHeapStart heap :: calls)
  | _, _, _ => .error .nullPointer

/-- One round of the loop of `InitializeCommandAllocators`. -/
def commandAllocatorRound (device : Handle) (i : Nat) (_ : Unit) :
    Res × Option Handle × Unit × List Call :=
  let a := m.createCommandAllocator i
  if failed a.hr then
    (file.error 221 (format "CreateCommandAllocator failed with code: {} for allocator: {}".toList
      [hrText a.hr, decimal i]), a.ptr, (), [.createCommandAllocator device])
  else (success, a.ptr, (), [.createCommandAllocator device])

/-- `InitializeCommandAllocators`. -/
def initializeCommandAllocators (device : Option Handle) (outCmdAllocators : List (Option Handle)) :
    Except Stuck (Res × List (Option Handle) × List Call) :=
  match device with
  | none => .error .nullPointer
  | some dev =>
    .ok (slotLoop Result.isOk success (commandAllocatorRound file m dev) 0 () outCmdAllocators)

/-- One round of the loop of `InitializeCommandLists`. -/
def commandListRound (device : Handle) (cmdAllocator : Option Handle) (i : Nat) (_ : Unit) :
    Res × Option Handle × Unit × List Call :=
  let a := m.createCommandList i
  if failed a.hr then
    (file.error 234 (format "CreateCommandList failed with code: {} for list: {}".toList
      [hrText a.hr, decimal i]), a.ptr, (), [.createCommandList device cmdAllocator])
  else (success, a.ptr, (), [.createCommandList device cmdAllocator, .close a.obj])

/-- `InitializeCommandLists`. -/
def initializeCommandLists (device cmdAllocator : Option Handle)
    (outCommandLists : List (Option Handle)) :
    Except Stuck (Res × List (Option Handle) × List Call) :=
  match device with
  | none => .error .nullPointer
  | some dev =>
    .ok (slotLoop Result.isOk success (commandListRound file m dev cmdAllocator) 0 ()
      outCommandLists)

/-! ## `RendererDX12::Initialize` -/

/-- A stage of `Initialize`: what it does to `*m_Data`. -/
abbrev DataStage := Stage Stuck RendererDX12Data Res Call

def deviceStage (fuel : Nat) : DataStage :=
  .writes (fun d => initializeDevice file m fuel d.device) fun d device => { d with device }

def commandQueueStage : DataStage :=
  .writes (fun d => initializeCommandQueue file m d.device) fun d cmdQueue => { d with cmdQueue }

def swapChainStage (window : Window) : DataStage :=
  .writes (fun d => initializeSwapChain file m window numFrameBuffers d.cmdQueue d.swapchain
      d.currentRtvIdx)
    fun d out => { d with swapchain := out.1, currentRtvIdx := out.2 }

def rtvDescriptorHeapStage : DataStage :=
  .writes (fun d => initializeRTVDescriptorHeap file m numFrameBuffers d.device d.rtvDescSize)
    fun d out => { d with rtvDescHeap := out.1, rtvDescSize := out.2 }

def renderTargetsStage : DataStage :=
  .writes (fun d => initializeRenderTargets file m d.rtvDescSize d.rtvDescHeap d.swapchain d.device
      d.renderTargets)
    fun d renderTargets => { d with renderTargets }

def commandAllocatorsStage : DataStage :=
  .writes (fun d => initializeCommandAllocators file m d.device d.cmdAllocators)
    fun d cmdAllocators => { d with cmdAllocators }

def commandListsStage : DataStage :=
  .writes (fun d => initializeCommandLists file m d.device (d.cmdAllocators.getD 0 none) d.cmdLists)
    fun d cmdLists => { d with cmdLists }

/-- The body of `RendererDX12::Initialize` after `m_Data` has been created. -/
def initializeStages (fuel : Nat) (window : Window) : DataStage :=
  (deviceStage file m fuel).andThen
      (file.returnOnError 254 "Device initialization".toList) <|
    (commandQueueStage file m).andThen
      (file.returnOnError 257 "Command queue initialization".toList) <|
    (swapChainStage file m window).andThen
      (file.returnOnError 260 "Swapchain initialization".toList) <|
    (rtvDescriptorHeapStage file m).andThen
      (file.returnOnError 263 "RTV descriptor heap initialization".toList) <|
    (renderTargetsStage file m).andThen
      (file.returnOnError 266 "Render targets initialization".toList) <|
    (commandAllocatorsStage file m).andThen
      (file.returnOnError 269 "Command allocators initialization".toList) <|
    (commandListsStage file m).andThen
      (file.returnOnError 272 "Command lists initialization".toList) <|
    .done success

/-! ## What a successful initialisation needs and leaves -/

/-- `EnumAdapters1` reports `n` adapters. -/
def Machine.Enumerates (n : Nat) : Prop :=
  m.enumAdapters1 n = dxgiErrorNotFound ∧ ∀ k, k < n → succeeded (m.enumAdapters1 k) = true

/-- One of the adapters yields a device. -/
def Machine.FindsDevice : Prop :=
  ∃ n, m.Enumerates n ∧ ∃ k, k < n ∧ succeeded (m.d3d12CreateDevice k).hr = true

/-- Some adapter yields a device, and every other checked call succeeds. -/
structure Machine.Works : Prop where
  factory : succeeded m.createDXGIFactory1 = true
  adapter : m.FindsDevice
  commandQueue : succeeded m.createCommandQueue.hr = true
  swapChainFactory : succeeded m.createDXGIFactory1ForSwapChain = true
  swapChain : succeeded m.createSwapChain.hr = true
  descriptorHeap : succeeded m.createDescriptorHeap.hr = true
  buffers : ∀ i, i < numFrameBuffers.toNat → succeeded (m.getBuffer i).hr = true
  allocators : ∀ i, i < numFrameBuffers.toNat → succeeded (m.createCommandAllocator i).hr = true
  lists : ∀ i, i < numRenderThreads.toNat → succeeded (m.createCommandList i).hr = true

/-- Every slot of an array of handles is set. -/
def AllSet (handles : List (Option Handle)) (n : Nat) : Prop :=
  handles.length = n ∧ ∀ h ∈ handles, h.isSome = true

/-- All seven stages have done their part. -/
structure RendererDX12Data.Initialized (d : RendererDX12Data) : Prop where
  device : d.device.isSome = true
  cmdQueue : d.cmdQueue.isSome = true
  swapchain : d.swapchain.isSome = true
  rtvDescHeap : d.rtvDescHeap.isSome = true
  renderTargets : AllSet d.renderTargets numFrameBuffers.toNat
  cmdAllocators : AllSet d.cmdAllocators numFrameBuffers.toNat
  cmdLists : AllSet d.cmdLists numRenderThreads.toNat

namespace Dx12Lemmas

theorem failed_eq (hr : HResult) : failed hr = !succeeded hr := by
  unfold failed succeeded
  rw [← decide_not, decide_eq_decide]
  exact Int32.not_le.symm

/-- `DXGI_ERROR_NOT_FOUND` is a failure. -/
theorem ne_notFound {hr : HResult} (h : succeeded hr = true) : hr ≠ dxgiErrorNotFound := by
  rintro rfl
  exact absurd h (by decide)

theorem ptr_isSome (a : Created) : a.ptr.isSome = succeeded a.hr := by
  unfold Created.ptr
  split
  · next h => exact h.symm
  · next h => exact (Bool.eq_false_iff.mpr h).symm

@[simp] theorem success_isOk : success.isOk = true := rfl

/-- A result is a success. -/
def IsOk (res : Res) : Prop :=
  res.isOk = true

theorem exits (line : UInt32) (context : Text) :
    Exits IsOk (file.returnOnError line context) := by
  constructor
  · intro res
    obtain ⟨val | e⟩ := res
    · exact ⟨fun _ => rfl, fun _ => rfl⟩
    · exact ⟨(nomatch ·), (nomatch ·)⟩
  · intro res res' h
    obtain ⟨val | e⟩ := res
    · cases h
    · cases h
      exact fun hok => nomatch hok

/-! The adapters. -/

/-- `DXGI_ADAPTER_FLAG_SOFTWARE` is set for the adapter. -/
def isSoftware (k : Nat) : Bool :=
  m.adapterFlags k &&& dxgiAdapterFlagSoftware ≠ 0

/-- An enumeration from `i` on that returns has seen the adapters up to the first
`DXGI_ERROR_NOT_FOUND` and has appended them to the two lists. -/
theorem enumerate_from {fuel i : Nat} {hw sw hw' sw' : List Nat} {calls : List Call}
    (h : enumerateAdapters m fuel i hw sw = .ok (hw', sw', calls)) :
    ∃ count, m.enumAdapters1 (i + count) = dxgiErrorNotFound ∧
      (∀ k, i ≤ k → k < i + count → succeeded (m.enumAdapters1 k) = true) ∧
      hw' = hw ++ (List.range' i count).filter (fun k => !isSoftware m k) ∧
      sw' = sw ++ (List.range' i count).filter (isSoftware m) := by
  induction fuel generalizing i hw sw hw' sw' calls with
  | zero => cases h
  | succ fuel ih =>
    simp only [enumerateAdapters] at h
    split at h
    · next hend =>
      cases h
      exact ⟨0, hend, fun k hle hlt => absurd hlt (Nat.not_lt.mpr hle), by simp, by simp⟩
    · split at h
      · cases h
      · next hok =>
        have hsucc : succeeded (m.enumAdapters1 i) = true := by
          rw [failed_eq] at hok
          simpa using hok
        split at h
        · cases h
        · next hw₁ sw₁ calls₁ hrest =>
          cases h
          have hshift : ∀ count, i + 1 + count = i + (count + 1) := fun count =>
            Nat.succ_add_eq_add_succ i count
          -- the adapter goes to one of the lists, and the loop goes on behind it
          have hnext : ∀ {count}, (∀ k, i + 1 ≤ k → k < i + 1 + count →
              succeeded (m.enumAdapters1 k) = true) →
              ∀ k, i ≤ k → k < i + (count + 1) → succeeded (m.enumAdapters1 k) = true := by
            intro count hall k hle hlt
            rcases Nat.eq_or_lt_of_le hle with rfl | hgt
            · exact hsucc
            · exact hall k hgt (hshift count ▸ hlt)
          split at hrest
          · next hflag =>
            obtain ⟨count, hend, hall, rfl, rfl⟩ := ih hrest
            have hsoft : isSoftware m i = true := by simpa [isSoftware] using hflag
            refine ⟨count + 1, hshift count ▸ hend, hnext hall, ?_, ?_⟩
            · simp [List.range'_succ, hsoft]
            · simp [List.range'_succ, hsoft]
          · next hflag =>
            obtain ⟨count, hend, hall, rfl, rfl⟩ := ih hrest
            have hhard : isSoftware m i = false := by simpa [isSoftware] using hflag
            refine ⟨count + 1, hshift count ▸ hend, hnext hall, ?_, ?_⟩
            · simp [List.range'_succ, hhard]
            · simp [List.range'_succ, hhard]

/-- A loop of `try_adapter` finds a device exactly when one of its adapters yields one. -/
theorem tryAdapters_spec (adapters : List Nat) (device : Option Handle) :
    ((tryAdapters m adapters device).1 = true ↔
        ∃ k ∈ adapters, succeeded (m.d3d12CreateDevice k).hr = true) ∧
      ((tryAdapters m adapters device).1 = true →
        (tryAdapters m adapters device).2.1.isSome = true) := by
  induction adapters generalizing device with
  | nil => simp [tryAdapters]
  | cons adap adapters ih =>
    simp only [tryAdapters]
    split
    · next hok => simp [hok, ptr_isSome]
    · next hfail =>
      obtain ⟨ihfound, ihdevice⟩ := ih (m.d3d12CreateDevice adap).ptr
      refine ⟨?_, ihdevice⟩
      rw [ihfound]
      simp [hfail]

end Dx12Lemmas

open Dx12Lemmas

/-- The enumeration ends at the first `DXGI_ERROR_NOT_FOUND`; the adapters before it are in the two
lists by their flag, each in the order of enumeration. -/
theorem enumerateAdapters_spec {fuel : Nat} {hw sw : List Nat} {calls : List Call}
    (h : enumerateAdapters m fuel 0 [] [] = .ok (hw, sw, calls)) :
    ∃ n, m.Enumerates n ∧ hw = (List.range n).filter (fun k => !isSoftware m k) ∧
      sw = (List.range n).filter (isSoftware m) := by
  obtain ⟨n, hend, hall, rfl, rfl⟩ := enumerate_from m h
  rw [Nat.zero_add] at hend
  refine ⟨n, ⟨hend, fun k hk => hall k (Nat.zero_le k) ?_⟩, ?_, ?_⟩
  · rwa [Nat.zero_add]
  · simp [List.range_eq_range']
  · simp [List.range_eq_range']

/-! ## The seven stages -/

namespace Dx12Lemmas

/-- The arrays have their sizes. -/
def Sized (d : RendererDX12Data) : Prop :=
  d.renderTargets.length = numFrameBuffers.toNat ∧
    d.cmdAllocators.length = numFrameBuffers.toNat ∧ d.cmdLists.length = numRenderThreads.toNat

/-! What holds after the first, the second, ... of the stages. -/

def HasDevice (d : RendererDX12Data) : Prop :=
  Sized d ∧ d.device.isSome = true

def HasCommandQueue (d : RendererDX12Data) : Prop :=
  HasDevice d ∧ d.cmdQueue.isSome = true

def HasSwapChain (d : RendererDX12Data) : Prop :=
  HasCommandQueue d ∧ d.swapchain.isSome = true

def HasHeap (d : RendererDX12Data) : Prop :=
  HasSwapChain d ∧ d.rtvDescHeap.isSome = true

def HasRenderTargets (d : RendererDX12Data) : Prop :=
  HasHeap d ∧ ∀ h ∈ d.renderTargets, h.isSome = true

def HasAllocators (d : RendererDX12Data) : Prop :=
  HasRenderTargets d ∧ ∀ h ∈ d.cmdAllocators, h.isSome = true

def HasLists (d : RendererDX12Data) : Prop :=
  HasAllocators d ∧ ∀ h ∈ d.cmdLists, h.isSome = true

/-- The enumeration has one length. -/
theorem enumerates_unique {n n' : Nat} (h : m.Enumerates n) (h' : m.Enumerates n') : n = n' := by
  have hle : ∀ {i j}, m.Enumerates i → m.Enumerates j → ¬ i < j := by
    intro i j hi hj hlt
    exact ne_notFound (hj.2 i hlt) hi.1
  exact Nat.le_antisymm (Nat.not_lt.mp (hle h' h)) (Nat.not_lt.mp (hle h h'))

/-- Searching the two lists finds a device exactly when some adapter yields one. -/
theorem found_iff {n : Nat} (hn : m.Enumerates n) (device device' : Option Handle) :
    ((tryAdapters m ((List.range n).filter fun k => !isSoftware m k) device).1 = true ∨
        (tryAdapters m ((List.range n).filter (isSoftware m)) device').1 = true) ↔
      m.FindsDevice := by
  rw [(tryAdapters_spec m _ device).1, (tryAdapters_spec m _ device').1]
  simp only [List.mem_filter, List.mem_range]
  constructor
  · rintro (⟨k, ⟨hk, -⟩, hok⟩ | ⟨k, ⟨hk, -⟩, hok⟩)
    · exact ⟨n, hn, k, hk, hok⟩
    · exact ⟨n, hn, k, hk, hok⟩
  · rintro ⟨n', hn', k, hk, hok⟩
    obtain rfl := enumerates_unique m hn hn'
    cases hflag : isSoftware m k with
    | true => exact .inr ⟨k, ⟨hk, hflag⟩, hok⟩
    | false => exact .inl ⟨k, ⟨hk, by rw [hflag]; rfl⟩, hok⟩

theorem device_triple (fuel : Nat) :
    Triple IsOk Sized (deviceStage file m fuel)
      (succeeded m.createDXGIFactory1 = true ∧ m.FindsDevice) HasDevice := by
  refine Triple.writes fun d res device calls hsized hrun => ?_
  simp only [initializeDevice, failed_eq] at hrun
  split at hrun
  · next hfail =>
    cases hrun
    have hnot : ¬ succeeded m.createDXGIFactory1 = true := by simpa using hfail
    exact ⟨⟨(nomatch ·), fun h => absurd h.1 hnot⟩, (nomatch ·)⟩
  · next hfactory =>
    have hsucc : succeeded m.createDXGIFactory1 = true := by simpa using hfactory
    split at hrun
    · cases hrun
    · next hw sw enumCalls henum =>
      obtain ⟨n, hn, rfl, rfl⟩ := enumerateAdapters_spec m henum
      split at hrun
      · next dev hwCalls hhw =>
        cases hrun
        have hfound := (found_iff m hn d.device none).mp (.inl (by rw [hhw]))
        have hset := (tryAdapters_spec m _ d.device).2 (by rw [hhw])
        rw [hhw] at hset
        exact ⟨⟨fun _ => ⟨hsucc, hfound⟩, fun _ => rfl⟩, fun _ => ⟨hsized, hset⟩⟩
      · next dev hwCalls hhw =>
        split at hrun
        · next dev' swCalls hsw =>
          cases hrun
          have hfound := (found_iff m hn none dev).mp (.inr (by rw [hsw]))
          have hset := (tryAdapters_spec m _ dev).2 (by rw [hsw])
          rw [hsw] at hset
          exact ⟨⟨fun _ => ⟨hsucc, hfound⟩, fun _ => rfl⟩, fun _ => ⟨hsized, hset⟩⟩
        · next dev' swCalls hsw =>
          cases hrun
          refine ⟨⟨(nomatch ·), fun h => ?_⟩, (nomatch ·)⟩
          rcases (found_iff m hn d.device dev).mpr h.2 with hhard | hsoft
          · rw [hhw] at hhard
            cases hhard
          · rw [hsw] at hsoft
            cases hsoft

theorem commandQueue_triple :
    Triple IsOk HasDevice (commandQueueStage file m)
      (succeeded m.createCommandQueue.hr = true) HasCommandQueue := by
  refine Triple.writes fun d res queue calls hpre hrun => ?_
  obtain ⟨dev, hdev⟩ := Option.isSome_iff_exists.mp hpre.2
  simp only [initializeCommandQueue, hdev, failed_eq] at hrun
  split at hrun
  · next hfail =>
    cases hrun
    exact ⟨⟨(nomatch ·), fun h => absurd h (by simpa using hfail)⟩, (nomatch ·)⟩
  · next hok =>
    cases hrun
    have hsucc : succeeded m.createCommandQueue.hr = true := by simpa using hok
    exact ⟨⟨fun _ => hsucc, fun _ => rfl⟩, fun _ => ⟨hpre, (ptr_isSome _).trans hsucc⟩⟩

theorem swapChain_triple (window : Window) :
    Triple IsOk HasCommandQueue (swapChainStage file m window)
      (succeeded m.createDXGIFactory1ForSwapChain = true ∧ succeeded m.createSwapChain.hr = true)
      HasSwapChain := by
  refine Triple.writes fun d res out calls hpre hrun => ?_
  simp only [initializeSwapChain, failed_eq] at hrun
  split at hrun
  · next hfail =>
    cases hrun
    exact ⟨⟨(nomatch ·), fun h => absurd h.1 (by simpa using hfail)⟩, (nomatch ·)⟩
  · next hfactory =>
    have hfac : succeeded m.createDXGIFactory1ForSwapChain = true := by simpa using hfactory
    split at hrun
    · next hfail =>
      cases hrun
      exact ⟨⟨(nomatch ·), fun h => absurd h.2 (by simpa using hfail)⟩, (nomatch ·)⟩
    · next hok =>
      cases hrun
      have hsucc : succeeded m.createSwapChain.hr = true := by simpa using hok
      exact ⟨⟨fun _ => ⟨hfac, hsucc⟩, fun _ => rfl⟩, fun _ => ⟨hpre, (ptr_isSome _).trans hsucc⟩⟩

theorem rtvDescriptorHeap_triple :
    Triple IsOk HasSwapChain (rtvDescriptorHeapStage file m)
      (succeeded m.createDescriptorHeap.hr = true) HasHeap := by
  refine Triple.writes fun d res out calls hpre hrun => ?_
  obtain ⟨dev, hdev⟩ := Option.isSome_iff_exists.mp hpre.1.1.2
  simp only [initializeRTVDescriptorHeap, hdev, failed_eq] at hrun
  split at hrun
  · next hfail =>
    cases hrun
    exact ⟨⟨(nomatch ·), fun h => absurd h (by simpa using hfail)⟩, (nomatch ·)⟩
  · next hok =>
    cases hrun
    have hsucc : succeeded m.createDescriptorHeap.hr = true := by simpa using hok
    exact ⟨⟨fun _ => hsucc, fun _ => rfl⟩, fun _ => ⟨hpre, (ptr_isSome _).trans hsucc⟩⟩

/-- The loops of the last three stages: a body that succeeds exactly when its creating call does,
and stores that call's pointer. -/
theorem creatingLoop {V : Type} {create : Nat → Created}
    {body : Nat → V → Res × Option Handle × V × List Call}
    (hok : ∀ i v, (body i v).1.isOk = succeeded (create i).hr)
    (hptr : ∀ i v, (body i v).2.1 = (create i).ptr) (slots : List (Option Handle)) (v : V) :
    ((slotLoop Result.isOk success body 0 v slots).1.isOk = true ↔
        ∀ i, i < slots.length → succeeded (create i).hr = true) ∧
      ((slotLoop Result.isOk success body 0 v slots).1.isOk = true →
        ∀ h ∈ (slotLoop Result.isOk success body 0 v slots).2.1, h.isSome = true) ∧
      (slotLoop Result.isOk success body 0 v slots).2.1.length = slots.length := by
  have hspec := slotLoop_spec (P := fun h : Option Handle => h.isSome = true) success_isOk
    (fun i v => by rw [hok i v]) (fun i v h => by
      rw [hptr i v, ptr_isSome, ← hok i v]
      exact h) slots 0 v
  rw [Nat.zero_add] at hspec
  exact ⟨hspec.1.trans ⟨fun h i hi => h i (Nat.zero_le i) hi, fun h i _ hi => h i hi⟩, hspec.2⟩

theorem renderTargetRound_isOk (size : UInt64) (chain dev i : Nat) (handle : UInt64) :
    (renderTargetRound file m size chain dev i handle).1.isOk = succeeded (m.getBuffer i).hr ∧
      (renderTargetRound file m size chain dev i handle).2.1 = (m.getBuffer i).ptr := by
  simp only [renderTargetRound, failed_eq]
  cases hhr : succeeded (m.getBuffer i).hr with
  | true => exact ⟨rfl, rfl⟩
  | false => exact ⟨rfl, rfl⟩

theorem commandAllocatorRound_isOk (dev i : Nat) (u : Unit) :
    (commandAllocatorRound file m dev i u).1.isOk = succeeded (m.createCommandAllocator i).hr ∧
      (commandAllocatorRound file m dev i u).2.1 = (m.createCommandAllocator i).ptr := by
  simp only [commandAllocatorRound, failed_eq]
  cases hhr : succeeded (m.createCommandAllocator i).hr with
  | true => exact ⟨rfl, rfl⟩
  | false => exact ⟨rfl, rfl⟩

theorem commandListRound_isOk (dev : Handle) (allocator : Option Handle) (i : Nat) (u : Unit) :
    (commandListRound file m dev allocator i u).1.isOk = succeeded (m.createCommandList i).hr ∧
      (commandListRound file m dev allocator i u).2.1 = (m.createCommandList i).ptr := by
  simp only [commandListRound, failed_eq]
  cases hhr : succeeded (m.createCommandList i).hr with
  | true => exact ⟨rfl, rfl⟩
  | false => exact ⟨rfl, rfl⟩

theorem renderTargets_triple :
    Triple IsOk HasHeap (renderTargetsStage file m)
      (∀ i, i < numFrameBuffers.toNat → succeeded (m.getBuffer i).hr = true) HasRenderTargets := by
  refine Triple.writes fun d res targets calls hpre hrun => ?_
  obtain ⟨dev, hdev⟩ := Option.isSome_iff_exists.mp hpre.1.1.1.2
  obtain ⟨chain, hchain⟩ := Option.isSome_iff_exists.mp hpre.1.2
  obtain ⟨heap, hheap⟩ := Option.isSome_iff_exists.mp hpre.2
  obtain ⟨⟨⟨⟨⟨htargets, hallocators, hlists⟩, hdevice⟩, hqueue⟩, hswapchain⟩, hset⟩ := hpre
  obtain ⟨hok, hall, hlen⟩ := creatingLoop
    (fun i v => (renderTargetRound_isOk file m d.rtvDescSize chain dev i v).1)
    (fun i v => (renderTargetRound_isOk file m d.rtvDescSize chain dev i v).2) d.renderTargets
    m.getCPUDescriptorHandleForHeapStart
  simp only [initializeRenderTargets, hdev, hchain, hheap] at hrun
  cases hrun
  rw [htargets] at hok
  exact ⟨hok, fun h =>
    ⟨⟨⟨⟨⟨⟨hlen.trans htargets, hallocators, hlists⟩, hdevice⟩, hqueue⟩, hswapchain⟩, hset⟩, hall h⟩⟩

theorem commandAllocators_triple :
    Triple IsOk HasRenderTargets (commandAllocatorsStage file m)
      (∀ i, i < numFrameBuffers.toNat → succeeded (m.createCommandAllocator i).hr = true)
      HasAllocators := by
  refine Triple.writes fun d res allocators calls hpre hrun => ?_
  obtain ⟨dev, hdev⟩ := Option.isSome_iff_exists.mp hpre.1.1.1.1.2
  obtain ⟨⟨⟨⟨⟨⟨htargets, hallocators, hlists⟩, hdevice⟩, hqueue⟩, hswapchain⟩, hset⟩, hviews⟩ :=
    hpre
  obtain ⟨hok, hall, hlen⟩ := creatingLoop
    (fun i v => (commandAllocatorRound_isOk file m dev i v).1)
    (fun i v => (commandAllocatorRound_isOk file m dev i v).2) d.cmdAllocators ()
  simp only [initializeCommandAllocators, hdev] at hrun
  rw [Except.ok.inj hrun] at hok hall hlen
  rw [hallocators] at hok
  exact ⟨hok, fun h =>
    ⟨⟨⟨⟨⟨⟨⟨htargets, hlen.trans hallocators, hlists⟩, hdevice⟩, hqueue⟩, hswapchain⟩, hset⟩,
      hviews⟩, hall h⟩⟩

theorem commandLists_triple :
    Triple IsOk HasAllocators (commandListsStage file m)
      (∀ i, i < numRenderThreads.toNat → succeeded (m.createCommandList i).hr = true) HasLists := by
  refine Triple.writes fun d res lists calls hpre hrun => ?_
  obtain ⟨dev, hdev⟩ := Option.isSome_iff_exists.mp hpre.1.1.1.1.1.2
  obtain ⟨⟨⟨⟨⟨⟨⟨htargets, hallocators, hlists⟩, hdevice⟩, hqueue⟩, hswapchain⟩, hset⟩, hviews⟩,
    hallocs⟩ := hpre
  obtain ⟨hok, hall, hlen⟩ := creatingLoop
    (fun i v => (commandListRound_isOk file m dev (d.cmdAllocators.getD 0 none) i v).1)
    (fun i v => (commandListRound_isOk file m dev (d.cmdAllocators.getD 0 none) i v).2)
    d.cmdLists ()
  simp only [initializeCommandLists, hdev] at hrun
  rw [Except.ok.inj hrun] at hok hall hlen
  rw [hlists] at hok
  exact ⟨hok, fun h =>
    ⟨⟨⟨⟨⟨⟨⟨⟨htargets, hallocators, hlen.trans hlists⟩, hdevice⟩, hqueue⟩, hswapchain⟩, hset⟩,
      hviews⟩, hallocs⟩, hall h⟩⟩

theorem initialized_of_hasLists {d : RendererDX12Data} (h : HasLists d) : d.Initialized := by
  obtain ⟨⟨⟨⟨⟨⟨⟨⟨htargets, hallocators, hlists⟩, hdevice⟩, hqueue⟩, hswapchain⟩, hset⟩, hviews⟩,
    hallocs⟩, hclosed⟩ := h
  exact ⟨hdevice, hqueue, hswapchain, hset, ⟨htargets, hviews⟩, ⟨hallocators, hallocs⟩,
    ⟨hlists, hclosed⟩⟩

/-- The seven stages in sequence. -/
theorem stages_triple (fuel : Nat) (window : Window) :
    Triple IsOk Sized (initializeStages file m fuel window) m.Works HasLists := by
  unfold initializeStages
  refine Triple.congr (.andThen (exits file 254 _) (device_triple file m fuel) <|
    .andThen (exits file 257 _) (commandQueue_triple file m) <|
    .andThen (exits file 260 _) (swapChain_triple file m window) <|
    .andThen (exits file 263 _) (rtvDescriptorHeap_triple file m) <|
    .andThen (exits file 266 _) (renderTargets_triple file m) <|
    .andThen (exits file 269 _) (commandAllocators_triple file m) <|
    .andThen (exits file 272 _) (commandLists_triple file m) <|
    Triple.done (show IsOk success from rfl)) ⟨?_, ?_⟩
  · rintro ⟨⟨hfactory, hadapter⟩, hqueue, ⟨hswapFactory, hswap⟩, hheap, hbuffers, hallocators,
      hlists, -⟩
    exact ⟨hfactory, hadapter, hqueue, hswapFactory, hswap, hheap, hbuffers, hallocators, hlists⟩
  · rintro ⟨hfactory, hadapter, hqueue, hswapFactory, hswap, hheap, hbuffers, hallocators, hlists⟩
    exact ⟨⟨hfactory, hadapter⟩, hqueue, ⟨hswapFactory, hswap⟩, hheap, hbuffers, hallocators,
      hlists, trivial⟩

end Dx12Lemmas

/-- When `Initialize` returns, it succeeds exactly when some adapter yields a device and every other
checked call succeeds, and a success leaves every handle of `*m_Data` set. -/
theorem initialize_spec {fuel : Nat} {window : Window} {res : Res} {d : RendererDX12Data}
    {calls : List Call} (h : initializeStages file m fuel window {} = .ok (res, d, calls)) :
    (res.isOk = true ↔ m.Works) ∧ (res.isOk = true → d.Initialized) := by
  obtain ⟨hok, hdone⟩ := stages_triple file m fuel window {} res d calls ⟨rfl, rfl, rfl⟩ h
  exact ⟨hok, fun hres => initialized_of_hasLists (hdone hres)⟩

end FlavoEngine.Renderer
