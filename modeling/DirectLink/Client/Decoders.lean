import DirectLink.Lib.Pointers

/-!
# The H.264 decoders

`SoftwareDecoder` and `NvdecDecoder` with every reference that they obtain from FFmpeg and release,
in the order of the source.  What FFmpeg answers is not determined.  The frame that is handed to the
callback is a clone, which belongs to the callback.

* `Decoder.permitted_iff_anew`: where a decoder may be initialized.
* `Decoder.once_leaves_nothing`: a decoder that was initialized only while it held nothing has
  released everything.
* `Decoder.restart_leaks`: one that was stopped and initialized again has not.
-/

namespace DirectLink

namespace Decode

open Handles

/-! ### The library -/

inductive Cmd : Type
  | hwDeviceCreate
  | findDecoder (name : String)
  | allocContext
  | bufferRef (buffer : Ref)
  /-- Store the buffer in `hw_device_ctx`, which is released with the context. -/
  | setHwDevice (codecCtx buffer : Ref)
  | setThreadCount (codecCtx : Ref) (count : Nat)
  | open2 (codecCtx : Ref)
  | frameAlloc
  /-- The reply says whether the packet is taken and how many frames are then to be received. -/
  | sendPacket (codecCtx : Ref)
  /-- Send the null packet; so many frames are left. -/
  | sendNull (codecCtx : Ref)
  | receiveFrame (codecCtx frame : Ref)
  | transferData (dst src : Ref)
  /-- Clone the frame, rescale its time and call back. -/
  | deliver (codecCtx frame : Ref)
  | frameUnref (frame : Ref)
  | frameFree (frame : Ref)
  | freeContext (codecCtx : Ref)
  | bufferUnref (buffer : Ref)

@[reducible] def sig : Sig where
  Cmd := Cmd
  Reply
    | .hwDeviceCreate | .allocContext | .bufferRef _ | .frameAlloc => Option Ref
    | .findDecoder _ | .open2 _ | .transferData _ _ => Bool
    | .sendPacket _ => Option Nat
    | .sendNull _ => Nat
    | .setHwDevice _ _ | .setThreadCount _ _ | .receiveFrame _ _ | .deliver _ _ | .frameUnref _
    | .frameFree _ | .freeContext _ | .bufferUnref _ => Unit

@[reducible] def interface : Interface where
  S := sig
  uses
    | .bufferRef r | .setThreadCount r _ | .open2 r | .sendPacket r | .sendNull r
    | .frameUnref r => [r]
    | .receiveFrame codecCtx frame | .deliver codecCtx frame => [codecCtx, frame]
    | .transferData dst src => [dst, src]
    | .hwDeviceCreate | .findDecoder _ | .allocContext | .setHwDevice _ _ | .frameAlloc
    | .frameFree _ | .freeContext _ | .bufferUnref _ => []
  gives
    | .setHwDevice codecCtx buffer => [(buffer, codecCtx)]
    | _ => []
  releases
    | .frameFree r | .freeContext r | .bufferUnref r => some r
    | _ => none
  yields
    | .hwDeviceCreate, r | .allocContext, r | .bufferRef _, r | .frameAlloc, r => r
    | .findDecoder _, _ | .setHwDevice _ _, _ | .setThreadCount _ _, _ | .open2 _, _
    | .sendPacket _, _ | .sendNull _, _ | .receiveFrame _ _, _ | .transferData _ _, _
    | .deliver _ _, _ | .frameUnref _, _ | .frameFree _, _ | .freeContext _, _
    | .bufferUnref _, _ => none

abbrev Calls (α : Type) : Type := Prog sig α

abbrev call (c : Cmd) : Calls (sig.Reply c) := Prog.issue (S := sig) c

/-- A function that returns a reference or null. -/
def pointer (source : Calls (Option Ref)) : Calls Ref := do
  match ← source with
  | some r => return r
  | none => return null

/-! ### The decoders -/

inductive Result : Type
  | success
  | errorDeviceNotFound
  | errorInitFailed
  deriving DecidableEq

/-- The fields that are pointers. -/
inductive Field : Type
  | hwDeviceCtx
  | codecCtx
  | frame
  | cpuFrame
  deriving DecidableEq

/-- A decoder; only one that uses the hardware has `hwDeviceCtx_` and `cpuFrame_`. -/
structure Decoder : Type where
  hardware : Bool
  ptr : Field → Ref
  initialized : Bool

namespace Decoder

/-- Either constructor. -/
def new (hardware : Bool) : Decoder := ⟨hardware, fun _ => null, false⟩

def set (d : Decoder) (f : Field) (r : Ref) : Decoder :=
  { d with ptr := Function.update d.ptr f r }

/-- `SoftwareDecoder::initialize`. -/
def initializeSoftware (d : Decoder) : Calls (Decoder × Result) := do
  if ← call (.findDecoder "h264") then
    let d := d.set .codecCtx (← pointer (call .allocContext))
    if d.ptr .codecCtx = null then return (d, .errorInitFailed)
    else
      call (.setThreadCount (d.ptr .codecCtx) 1)
      if ← call (.open2 (d.ptr .codecCtx)) then
        let d := d.set .frame (← pointer (call .frameAlloc))
        if d.ptr .frame = null then return (d, .errorInitFailed)
        else return ({ d with initialized := true }, .success)
      else return (d, .errorInitFailed)
  else return (d, .errorInitFailed)

/-- `codecCtx_->hw_device_ctx = av_buffer_ref(hwDeviceCtx_)` -/
def attach (d : Decoder) : Calls Unit := do
  match ← call (.bufferRef (d.ptr .hwDeviceCtx)) with
  | some buffer => call (.setHwDevice (d.ptr .codecCtx) buffer)
  | none => return ()

/-- `NvdecDecoder::initialize`. -/
def initializeNvdec (d : Decoder) : Calls (Decoder × Result) := do
  let d := d.set .hwDeviceCtx (← pointer (call .hwDeviceCreate))
  if d.ptr .hwDeviceCtx = null then return (d, .errorDeviceNotFound)
  else if ← call (.findDecoder "h264_cuvid") then
    let d := d.set .codecCtx (← pointer (call .allocContext))
    if d.ptr .codecCtx = null then return (d, .errorInitFailed)
    else
      d.attach
      if ← call (.open2 (d.ptr .codecCtx)) then
        let d := d.set .frame (← pointer (call .frameAlloc))
        let d := d.set .cpuFrame (← pointer (call .frameAlloc))
        if d.ptr .frame = null ∨ d.ptr .cpuFrame = null then return (d, .errorInitFailed)
        else return ({ d with initialized := true }, .success)
      else return (d, .errorInitFailed)
  else return (d, .errorDeviceNotFound)

def initializeDecoder (d : Decoder) : Calls (Decoder × Result) :=
  if d.hardware then d.initializeNvdec else d.initializeSoftware

/-- The loop of `SoftwareDecoder::decodePacket`, with some frames to come. -/
def receiveSoftware (d : Decoder) : Nat → Calls Unit
  | 0 => call (.receiveFrame (d.ptr .codecCtx) (d.ptr .frame))
  | left + 1 => do
    call (.receiveFrame (d.ptr .codecCtx) (d.ptr .frame))
    call (.deliver (d.ptr .codecCtx) (d.ptr .frame))
    call (.frameUnref (d.ptr .frame))
    receiveSoftware d left

/-- The loop of `NvdecDecoder::decodePacket`. -/
def receiveNvdec (d : Decoder) : Nat → Calls Unit
  | 0 => call (.receiveFrame (d.ptr .codecCtx) (d.ptr .frame))
  | left + 1 => do
    call (.receiveFrame (d.ptr .codecCtx) (d.ptr .frame))
    if ← call (.transferData (d.ptr .cpuFrame) (d.ptr .frame)) then
      call (.deliver (d.ptr .codecCtx) (d.ptr .cpuFrame))
      call (.frameUnref (d.ptr .frame))
      call (.frameUnref (d.ptr .cpuFrame))
      receiveNvdec d left
    else
      call (.frameUnref (d.ptr .frame))
      receiveNvdec d left

def decodePacket (d : Decoder) : Calls Unit := do
  if d.initialized then
    match ← call (.sendPacket (d.ptr .codecCtx)) with
    | none => return ()
    | some frames => if d.hardware then d.receiveNvdec frames else d.receiveSoftware frames
  else return ()

/-- Receive the frames that are left, and drop them. -/
def drain (d : Decoder) : Nat → Calls Unit
  | 0 => call (.receiveFrame (d.ptr .codecCtx) (d.ptr .frame))
  | left + 1 => do
    call (.receiveFrame (d.ptr .codecCtx) (d.ptr .frame))
    call (.frameUnref (d.ptr .frame))
    drain d left

def flush (d : Decoder) : Calls Unit := do
  let left ← call (.sendNull (d.ptr .codecCtx))
  d.drain left

/-- `stop` of either class. -/
def stop (d : Decoder) : Calls Decoder := do
  if d.initialized then
    d.flush
    call (.freeContext (d.ptr .codecCtx))
    return { d.set .codecCtx null with initialized := false }
  else return d

/-- Which function releases a field. -/
def releaseCmd (r : Ref) : Field → Cmd
  | .hwDeviceCtx => .bufferUnref r
  | .codecCtx => .freeContext r
  | .frame | .cpuFrame => .frameFree r

/-- What the destructor releases, in this order. -/
def members (hardware : Bool) : List Field :=
  if hardware then [.frame, .cpuFrame, .codecCtx, .hwDeviceCtx] else [.frame, .codecCtx]

def releaseAll (d : Decoder) : List Field → Calls Unit
  | [] => return ()
  | f :: rest =>
    if d.ptr f = null then releaseAll d rest
    else do
      let _ ← call (releaseCmd (d.ptr f) f)
      releaseAll (d.set f null) rest

/-- The destructor. -/
def destroy (d : Decoder) : Calls Unit := do
  if d.initialized then
    d.flush
    d.releaseAll (members d.hardware)
  else d.releaseAll (members d.hardware)

end Decoder

/-- `createDecoder`. -/
def createDecoder : Calls Decoder := do
  if ← call (.findDecoder "h264_cuvid") then
    match ← call .hwDeviceCreate with
    | some buffer =>
      call (.bufferUnref buffer)
      return .new true
    | none => return .new false
  else return .new false

/-! ### What a decoder holds -/

/-- FFmpeg answers as it likes, and nothing is lent. -/
abbrev Refs : Logic sig := interface.logic (fun _ _ => True) fun _ => False

variable {h : Heap} {lost : Set Ref} {d : Decoder} {α : Type}

/-- The call yields a new reference or none. -/
def Obtains (source : Calls (Option Ref)) : Prop :=
  ∀ h : Heap, source.wp Refs
    (fun r h' => r.elim (h' = h) fun r => h.Fresh r ∧ h' = h.make r) h

theorem obtains_hwDeviceCreate : Obtains (call .hwDeviceCreate) := by
  intro h
  refine Interface.wp_yield (by simp) rfl rfl ?_ ?_
  · intro _ same _
    subst same
    exact rfl
  · intro _ r same _ fresh
    subst same
    exact ⟨fresh, rfl⟩

theorem obtains_allocContext : Obtains (call .allocContext) := by
  intro h
  refine Interface.wp_yield (by simp) rfl rfl ?_ ?_
  · intro _ same _
    subst same
    exact rfl
  · intro _ r same _ fresh
    subst same
    exact ⟨fresh, rfl⟩

theorem obtains_frameAlloc : Obtains (call .frameAlloc) := by
  intro h
  refine Interface.wp_yield (by simp) rfl rfl ?_ ?_
  · intro _ same _
    subst same
    exact rfl
  · intro _ r same _ fresh
    subst same
    exact ⟨fresh, rfl⟩

namespace Decoder

@[simp] theorem set_self (f : Field) (r : Ref) : (d.set f r).ptr f = r := Function.update_self ..

@[simp] theorem set_of_ne {f f' : Field} (ne : f' ≠ f) (r : Ref) :
    (d.set f r).ptr f' = d.ptr f' := Function.update_of_ne ne ..

@[simp] theorem set_hardware (f : Field) (r : Ref) : (d.set f r).hardware = d.hardware := rfl

@[simp] theorem set_initialized (f : Field) (r : Ref) :
    (d.set f r).initialized = d.initialized := rfl

/-- A field is assigned what a function returned. -/
theorem assign_spec {source : Calls (Option Ref)} {k : Ref → Calls α} {Q : α → Heap → Prop}
    (obtains : Obtains source) (tracks : Tracks d.ptr lost h) (f : Field)
    (rest : ∀ r h', Tracks (d.set f r).ptr (leave lost (d.ptr f)) h' → (k r).wp Refs Q h') :
    (pointer source >>= k).wp Refs Q h := by
  rw [pointer, Prog.wp_bind, Prog.wp_bind]
  refine Prog.wp_mono (obtains h) ?_
  intro answer h' is
  rcases answer with _ | r
  · obtain rfl : h' = h := is
    exact rest null h' (tracks.clear f)
  · obtain ⟨fresh, rfl⟩ : h.Fresh r ∧ h' = h.make r := is
    exact rest r _ (tracks.assign f fresh)

/-- What the methods of an initialized decoder use is there. -/
structure Ready (d : Decoder) : Prop where
  codecCtx : d.ptr .codecCtx ≠ null
  frame : d.ptr .frame ≠ null
  cpuFrame : d.hardware = true → d.ptr .cpuFrame ≠ null

/-- What is to be released is what the fields point to and what was lost. -/
structure Sound (d : Decoder) (lost : Set Ref) (h : Heap) : Prop where
  tracks : Tracks d.ptr lost h
  ready : d.initialized = true → d.Ready
  software : d.hardware = false → d.ptr .hwDeviceCtx = null ∧ d.ptr .cpuFrame = null

theorem sound_new {hardware : Bool} (tracks : Tracks (new hardware).ptr ∅ h) :
    (new hardware).Sound ∅ h :=
  ⟨tracks, nofun, fun _ => ⟨rfl, rfl⟩⟩

/-! ### The methods -/

/-- A command on pointers that are not null changes nothing. -/
theorem use_spec {c : Cmd} {k : sig.Reply c → Calls α} {Q : α → Heap → Prop}
    (live : ∀ r ∈ interface.uses c, h.Live r) (gives : interface.gives c = [])
    (releases : interface.releases c = none) (yields : ∀ reply, interface.yields c reply = none)
    (rest : ∀ reply, (k reply).wp Refs Q h) : (call c >>= k).wp Refs Q h :=
  Interface.wp_use live gives releases yields fun reply _ => rest reply

theorem receiveSoftware_spec (tracks : Tracks d.ptr lost h) (ready : d.Ready) (left : Nat) :
    (d.receiveSoftware left).wp Refs (fun _ h' => h' = h) h := by
  have codecCtx := tracks.live ready.codecCtx
  have frame := tracks.live ready.frame
  induction left with
  | zero => exact Interface.wp_use (by simp [codecCtx, frame]) rfl rfl (fun _ => rfl) fun _ _ => rfl
  | succ left ih =>
    rw [receiveSoftware]
    refine use_spec (by simp [codecCtx, frame]) rfl rfl (fun _ => rfl) fun _ => ?_
    refine use_spec (by simp [codecCtx, frame]) rfl rfl (fun _ => rfl) fun _ => ?_
    exact use_spec (by simp [frame]) rfl rfl (fun _ => rfl) fun _ => ih

theorem receiveNvdec_spec (tracks : Tracks d.ptr lost h) (ready : d.Ready)
    (hardware : d.hardware = true) (left : Nat) :
    (d.receiveNvdec left).wp Refs (fun _ h' => h' = h) h := by
  have codecCtx := tracks.live ready.codecCtx
  have frame := tracks.live ready.frame
  have cpuFrame := tracks.live (ready.cpuFrame hardware)
  induction left with
  | zero => exact Interface.wp_use (by simp [codecCtx, frame]) rfl rfl (fun _ => rfl) fun _ _ => rfl
  | succ left ih =>
    rw [receiveNvdec]
    refine use_spec (by simp [codecCtx, frame]) rfl rfl (fun _ => rfl) fun _ => ?_
    refine use_spec (by simp [cpuFrame, frame]) rfl rfl (fun _ => rfl) fun transferred => ?_
    split
    · refine use_spec (by simp [codecCtx, cpuFrame]) rfl rfl (fun _ => rfl) fun _ => ?_
      refine use_spec (by simp [frame]) rfl rfl (fun _ => rfl) fun _ => ?_
      exact use_spec (by simp [cpuFrame]) rfl rfl (fun _ => rfl) fun _ => ih
    · exact use_spec (by simp [frame]) rfl rfl (fun _ => rfl) fun _ => ih

theorem decodePacket_spec (sound : d.Sound lost h) :
    d.decodePacket.wp Refs (fun _ h' => h' = h) h := by
  rw [decodePacket]
  split
  · next initialized =>
    have ready := sound.ready initialized
    refine use_spec (by simp [sound.tracks.live ready.codecCtx]) rfl rfl (fun _ => rfl) ?_
    intro answer
    rcases answer with _ | frames
    · exact rfl
    · dsimp only
      split
      · next hardware => exact receiveNvdec_spec sound.tracks ready hardware frames
      · exact receiveSoftware_spec sound.tracks ready frames
  · exact rfl

theorem drain_spec (tracks : Tracks d.ptr lost h) (ready : d.Ready) (left : Nat) :
    (d.drain left).wp Refs (fun _ h' => h' = h) h := by
  have codecCtx := tracks.live ready.codecCtx
  have frame := tracks.live ready.frame
  induction left with
  | zero => exact Interface.wp_use (by simp [codecCtx, frame]) rfl rfl (fun _ => rfl) fun _ _ => rfl
  | succ left ih =>
    rw [drain]
    refine use_spec (by simp [codecCtx, frame]) rfl rfl (fun _ => rfl) fun _ => ?_
    exact use_spec (by simp [frame]) rfl rfl (fun _ => rfl) fun _ => ih

theorem flush_spec (tracks : Tracks d.ptr lost h) (ready : d.Ready) :
    d.flush.wp Refs (fun _ h' => h' = h) h := by
  rw [flush]
  refine use_spec (by simp [tracks.live ready.codecCtx]) rfl rfl (fun _ => rfl) fun left => ?_
  exact drain_spec tracks ready left

/-- A command that releases what a field points to. -/
theorem release_spec {f : Field} {c : Cmd} {k : sig.Reply c → Calls α} {Q : α → Heap → Prop}
    (tracks : Tracks d.ptr lost h) (some : d.ptr f ≠ null) (uses : interface.uses c = [])
    (gives : interface.gives c = []) (releases : interface.releases c = .some (d.ptr f))
    (yields : ∀ reply, interface.yields c reply = none)
    (rest : ∀ reply h', Tracks (d.set f null).ptr lost h' → (k reply).wp Refs Q h') :
    (call c >>= k).wp Refs Q h :=
  Interface.wp_release (tracks.own some) (fun _ => False.elim) uses gives releases yields
    fun reply _ => rest reply _ (tracks.release some)

theorem stop_spec (sound : d.Sound lost h) :
    d.stop.wp Refs (fun d' h' => d'.Sound lost h' ∧ d'.initialized = false ∧
      d'.ptr .frame = d.ptr .frame) h := by
  rw [stop]
  split
  · next initialized =>
    have ready := sound.ready initialized
    rw [Prog.wp_bind]
    refine Prog.wp_mono (flush_spec sound.tracks ready) ?_
    intro _ _ same
    subst same
    refine release_spec sound.tracks ready.codecCtx rfl rfl rfl (fun _ => rfl) ?_
    intro _ h' tracks
    refine ⟨⟨tracks, nofun, ?_⟩, rfl, ?_⟩
    · intro software
      simpa [set] using sound.software software
    · simp [set]
  · next stopped => exact ⟨sound, by simpa using stopped, rfl⟩

theorem releaseAll_spec (tracks : Tracks d.ptr lost h) (fields : List Field) :
    (d.releaseAll fields).wp Refs (fun _ h' => ∃ ptr, Tracks ptr lost h' ∧
      ∀ f, ptr f = null ∨ f ∉ fields ∧ ptr f = d.ptr f) h := by
  induction fields generalizing d h with
  | nil => exact ⟨d.ptr, tracks, fun f => .inr ⟨List.not_mem_nil, rfl⟩⟩
  | cons f rest ih =>
    rw [releaseAll]
    split
    · next none_ =>
      refine Prog.wp_mono (ih tracks) ?_
      intro _ h' holds
      rcases holds with ⟨ptr, tracks', points⟩
      refine ⟨ptr, tracks', fun f' => ?_⟩
      rcases points f' with gone | ⟨other, same⟩
      · exact .inl gone
      · by_cases is : f' = f
        · exact .inl (by rw [same, is, none_])
        · exact .inr ⟨by simp [is, other], same⟩
    · next some_ =>
      have step : ∀ h', Tracks (d.set f null).ptr lost h' →
          ((d.set f null).releaseAll rest).wp Refs (fun _ h' => ∃ ptr, Tracks ptr lost h' ∧
            ∀ f', ptr f' = null ∨ f' ∉ f :: rest ∧ ptr f' = d.ptr f') h' := by
        intro h' tracks'
        refine Prog.wp_mono (ih tracks') ?_
        intro _ h'' holds
        rcases holds with ⟨ptr, tracks'', points⟩
        refine ⟨ptr, tracks'', fun f' => ?_⟩
        rcases points f' with gone | ⟨other, same⟩
        · exact .inl gone
        · by_cases is : f' = f
          · exact .inl (by rw [same, is, set_self])
          · exact .inr ⟨by simp [is, other], by rw [same, set_of_ne is]⟩
      cases f <;> exact release_spec tracks some_ rfl rfl rfl (fun _ => rfl) fun _ => step

theorem destroy_spec (sound : d.Sound lost h) :
    d.destroy.wp Refs (fun _ h' => h'.Owns lost) h := by
  have all : (d.releaseAll (members d.hardware)).wp Refs (fun _ h' => h'.Owns lost) h := by
    refine Prog.wp_mono (releaseAll_spec sound.tracks _) ?_
    intro _ h' holds
    rcases holds with ⟨ptr, tracks, points⟩
    have none_ : ∀ f, ptr f = null := by
      intro f
      rcases points f with gone | ⟨other, same⟩
      · exact gone
      · rw [same]
        cases hardware : d.hardware with
        | true => cases f <;> simp [members, hardware] at other
        | false =>
          have unused := sound.software hardware
          cases f <;> simp [members, hardware, unused] at other ⊢
    intro r
    rw [tracks.owns r]
    constructor
    · intro either
      rcases either with is | ⟨some, f, points⟩
      · exact is
      · exact absurd (points.symm.trans (none_ f)) some
    · exact .inl
  rw [destroy]
  split
  · next initialized =>
    rw [Prog.wp_bind]
    refine Prog.wp_mono (flush_spec sound.tracks (sound.ready initialized)) ?_
    intro _ _ agrees
    subst agrees
    exact all
  · exact all

/-- What `initialize` loses: nothing of a decoder whose fields are null, and everything that an
initialized decoder held before. -/
structure Loses (d : Decoder) (lost : Set Ref) (d' : Decoder) (lost' : Set Ref) : Prop where
  kept : lost ⊆ lost'
  blank : (∀ f, d.ptr f = null) → lost' = lost
  held : d'.initialized = true → ∀ f ∈ members d.hardware, d.ptr f ≠ null → d.ptr f ∈ lost'

theorem Loses.failed {lost' : Set Ref} {d' : Decoder} (kept : lost ⊆ lost')
    (blank : (∀ f, d.ptr f = null) → lost' = lost) (failed : d'.initialized = false) :
    d.Loses lost d' lost' :=
  ⟨kept, blank, fun initialized => by simp [failed] at initialized⟩

theorem initializeSoftware_spec (sound : d.Sound lost h) (stopped : d.initialized = false)
    (software : d.hardware = false) :
    d.initializeSoftware.wp Refs
      (fun r h' => ∃ lost', r.1.Sound lost' h' ∧ d.Loses lost r.1 lost') h := by
  have unused := sound.software software
  rw [initializeSoftware]
  refine use_spec (by simp) rfl rfl (fun _ => rfl) fun found => ?_
  split
  swap
  · exact ⟨lost, sound, .failed (subset_refl _) (fun _ => rfl) stopped⟩
  refine assign_spec obtains_allocContext sound.tracks .codecCtx fun codecCtx h₁ tracks₁ => ?_
  have failed₁ : ∃ lost', (d.set .codecCtx codecCtx).Sound lost' h₁ ∧
      d.Loses lost (d.set .codecCtx codecCtx) lost' :=
    ⟨_, ⟨tracks₁, fun is => by simp [stopped] at is, fun _ => by simpa using unused⟩,
      .failed (subset_leave ..) (fun blank => by simp [blank]) stopped⟩
  dsimp only
  split
  · exact failed₁
  next there =>
  refine use_spec (by simpa using tracks₁.live there) rfl rfl (fun _ => rfl) fun _ => ?_
  refine use_spec (by simpa using tracks₁.live there) rfl rfl (fun _ => rfl) fun opened => ?_
  split
  swap
  · exact failed₁
  refine assign_spec obtains_frameAlloc tracks₁ .frame fun frame h₂ tracks₂ => ?_
  have kept : lost ⊆ leave (leave lost (d.ptr .codecCtx)) (d.ptr .frame) :=
    (subset_leave ..).trans (subset_leave ..)
  rw [set_of_ne (by decide)] at tracks₂
  split
  · exact ⟨_, ⟨tracks₂, fun is => by simp [stopped] at is, fun _ => by simpa using unused⟩,
      .failed kept (fun blank => by simp [blank]) stopped⟩
  next framed =>
  refine ⟨_, ⟨tracks₂, fun _ => ⟨?_, framed, ?_⟩, fun _ => by simpa using unused⟩,
    ⟨kept, fun blank => by simp [blank], ?_⟩⟩
  · simpa using there
  · simp [software]
  · intro _ f member some
    cases f with
    | codecCtx => exact .inl (mem_leave some)
    | frame => exact mem_leave some
    | hwDeviceCtx | cpuFrame => simp [members, software] at member

/-- The context gets a reference of its own to the device, where there is one. -/
theorem attach_spec (tracks : Tracks d.ptr lost h) (device : d.ptr .hwDeviceCtx ≠ null)
    (codecCtx : d.ptr .codecCtx ≠ null) :
    d.attach.wp Refs (fun _ h' => Tracks d.ptr lost h') h := by
  refine Interface.wp_yield (by simpa using tracks.live device) rfl rfl ?_ ?_
  · intro _ same _
    subst same
    exact tracks
  · intro _ buffer same _ fresh
    subst same
    have other : d.ptr .codecCtx ≠ buffer := (tracks.fresh_apart fresh).2 .codecCtx
    have gives : interface.gives (.setHwDevice (d.ptr .codecCtx) buffer) =
        [buffer].map fun part => (part, d.ptr .codecCtx) := rfl
    refine Interface.wp_give rfl gives rfl (fun _ => rfl) ?_ ?_
      fun _ _ => tracks.attach codecCtx fresh
    · rw [Heap.make, Function.update_of_ne other]
      exact tracks.own codecCtx
    · intro part isPart
      obtain rfl : part = buffer := List.mem_singleton.mp isPart
      exact ⟨Function.update_self .., other.symm⟩

theorem initializeNvdec_spec (sound : d.Sound lost h) (stopped : d.initialized = false)
    (hardware : d.hardware = true) :
    d.initializeNvdec.wp Refs
      (fun r h' => ∃ lost', r.1.Sound lost' h' ∧ d.Loses lost r.1 lost') h := by
  -- every field is assigned at most once, so what it pointed to before is what is lost
  have partial_ : ∀ {d' : Decoder} {lost' : Set Ref} {h' : Heap}, Tracks d'.ptr lost' h' →
      d'.initialized = false → d'.hardware = true → lost ⊆ lost' →
      ((∀ f, d.ptr f = null) → lost' = lost) →
      ∃ lost', d'.Sound lost' h' ∧ d.Loses lost d' lost' := by
    intro d' lost' h' tracks stopped' hardware' kept blank
    exact ⟨lost', ⟨tracks, fun is => by simp [stopped'] at is,
      fun software => by simp [hardware'] at software⟩, .failed kept blank stopped'⟩
  rw [initializeNvdec]
  refine assign_spec obtains_hwDeviceCreate sound.tracks .hwDeviceCtx fun device h₁ tracks₁ => ?_
  have kept₁ : lost ⊆ leave lost (d.ptr .hwDeviceCtx) := subset_leave ..
  dsimp only
  split
  · exact partial_ tracks₁ stopped hardware kept₁ fun blank => by simp [blank]
  next there₁ =>
  refine use_spec (by simp) rfl rfl (fun _ => rfl) fun found => ?_
  split
  swap
  · exact partial_ tracks₁ stopped hardware kept₁ fun blank => by simp [blank]
  refine assign_spec obtains_allocContext tracks₁ .codecCtx fun codecCtx h₂ tracks₂ => ?_
  rw [set_of_ne (by decide)] at tracks₂
  have kept₂ := kept₁.trans (subset_leave _ (d.ptr .codecCtx))
  split
  · exact partial_ tracks₂ stopped hardware kept₂ fun blank => by simp [blank]
  next there₂ =>
  rw [Prog.wp_bind]
  refine Prog.wp_mono (attach_spec tracks₂ (by simpa using there₁) there₂) ?_
  intro _ h₃ tracks₃
  refine use_spec (by simpa using tracks₃.live there₂) rfl rfl (fun _ => rfl) fun opened => ?_
  split
  swap
  · exact partial_ tracks₃ stopped hardware kept₂ fun blank => by simp [blank]
  refine assign_spec obtains_frameAlloc tracks₃ .frame fun frame h₄ tracks₄ => ?_
  rw [set_of_ne (by decide), set_of_ne (by decide)] at tracks₄
  have kept₄ := kept₂.trans (subset_leave _ (d.ptr .frame))
  refine assign_spec obtains_frameAlloc tracks₄ .cpuFrame fun cpuFrame h₅ tracks₅ => ?_
  rw [set_of_ne (by decide), set_of_ne (by decide), set_of_ne (by decide)] at tracks₅
  have kept₅ := kept₄.trans (subset_leave _ (d.ptr .cpuFrame))
  split
  · exact partial_ tracks₅ stopped hardware kept₅ fun blank => by simp [blank]
  next framed =>
  obtain ⟨frame_some, cpuFrame_some⟩ := not_or.mp framed
  refine ⟨_, ⟨tracks₅, fun _ => ⟨?_, ?_, fun _ => cpuFrame_some⟩, fun software => ?_⟩,
    ⟨kept₅, fun blank => by simp [blank], ?_⟩⟩
  · simpa using there₂
  · simpa using frame_some
  · simp [hardware] at software
  · intro _ f member some
    cases f with
    | hwDeviceCtx => exact .inl (.inl (.inl (mem_leave some)))
    | codecCtx => exact .inl (.inl (mem_leave some))
    | frame => exact .inl (mem_leave some)
    | cpuFrame => exact mem_leave some

theorem initializeDecoder_spec (sound : d.Sound lost h) (stopped : d.initialized = false) :
    d.initializeDecoder.wp Refs
      (fun r h' => ∃ lost', r.1.Sound lost' h' ∧ d.Loses lost r.1 lost') h := by
  rw [initializeDecoder]
  split
  · next hardware => exact initializeNvdec_spec sound stopped hardware
  · next software => exact initializeSoftware_spec sound stopped (by simpa using software)

/-! ### Runs -/

/-- A method that is called. -/
inductive Action : Type
  | initializeDecoder
  | decodePacket
  | stop
  deriving DecidableEq

def act (d : Decoder) : Action → Calls Decoder
  | .initializeDecoder => do
    let (d, _) ← d.initializeDecoder
    return d
  | .decodePacket => do
    d.decodePacket
    return d
  | .stop => d.stop

/-- `Leads G d h d' h'`: methods that satisfy `G` where they are called lead from `d` to `d'`. -/
inductive Leads (G : Decoder → Action → Prop) (d : Decoder) (h : Heap) : Decoder → Heap → Prop
  | start : Leads G d h d h
  | act {d' d'' : Decoder} {h' h'' : Heap} {a : Action} : Leads G d h d' h' → G d' a →
    Prog.Comes Refs (d'.act a) h' (.done d'') h'' → Leads G d h d'' h''

/-- A decoder that is initialized is not initialized again. -/
def Anew (d : Decoder) (a : Action) : Prop := a = .initializeDecoder → d.initialized = false

/-- A decoder is initialized while it holds nothing. -/
def Once (d : Decoder) (a : Action) : Prop := a = .initializeDecoder → ∀ f, d.ptr f = null

theorem act_spec {a : Action} (sound : d.Sound lost h) (anew : Anew d a) :
    (d.act a).wp Refs (fun d' h' => ∃ lost', d'.Sound lost' h' ∧ lost ⊆ lost' ∧
      (Once d a → lost' = lost)) h := by
  cases a with
  | initializeDecoder =>
    rw [act, Prog.wp_bind]
    refine Prog.wp_mono (initializeDecoder_spec sound (anew rfl)) ?_
    intro holds h' post
    rcases holds with ⟨d', result⟩
    rcases post with ⟨lost', sound', loses⟩
    exact ⟨lost', sound', loses.kept, fun once => loses.blank (once rfl)⟩
  | decodePacket =>
    rw [act, Prog.wp_bind]
    refine Prog.wp_mono (decodePacket_spec sound) ?_
    intro _ _ same
    subst same
    exact ⟨lost, sound, subset_refl _, fun _ => rfl⟩
  | stop =>
    refine Prog.wp_mono (stop_spec sound) ?_
    intro d' h' holds
    rcases holds with ⟨sound', -, -⟩
    exact ⟨lost, sound', subset_refl _, fun _ => rfl⟩

theorem Sound.leads {d' : Decoder} {h' : Heap} (sound : d.Sound lost h)
    (leads : Leads Anew d h d' h') : ∃ lost', d'.Sound lost' h' ∧ lost ⊆ lost' := by
  induction leads with
  | start => exact ⟨lost, sound, subset_refl _⟩
  | act _ anew comes ih =>
    obtain ⟨lost₁, sound₁, kept₁⟩ := ih
    obtain ⟨lost₂, sound₂, kept₂, -⟩ :=
      (Prog.permitted_of_wp (act_spec sound₁ anew)).2 _ _ comes
    exact ⟨lost₂, sound₂, kept₁.trans kept₂⟩

/-- A decoder that holds nothing is not initialized. -/
theorem Sound.anew {a : Action} (sound : d.Sound lost h) (once : Once d a) : Anew d a := by
  intro same
  rw [← Bool.not_eq_true]
  exact fun initialized => (sound.ready initialized).codecCtx (once same _)

theorem Sound.leads_once {d' : Decoder} {h' : Heap} (sound : d.Sound lost h)
    (leads : Leads Once d h d' h') : d'.Sound lost h' := by
  induction leads with
  | start => exact sound
  | act _ once comes ih =>
    obtain ⟨lost', sound', -, same⟩ :=
      (Prog.permitted_of_wp (act_spec ih (ih.anew once))).2 _ _ comes
    rwa [same once] at sound'

/-- `initialize` can end without a context. -/
theorem initializeDecoder_without (sound : d.Sound lost h) {Q : Decoder × Result → Heap → Prop}
    (holds : d.initializeDecoder.wp Refs Q h) :
    ∃ d' lost' h' result, Tracks d'.ptr lost' h' ∧ d'.ptr .codecCtx = null ∧
      d'.initialized = d.initialized ∧ Q (d', result) h' := by
  rw [initializeDecoder] at holds
  split at holds
  · obtain ⟨r, fresh⟩ := sound.tracks.exists_fresh
    have some_ : (d.set .hwDeviceCtx r).ptr .hwDeviceCtx ≠ null := by
      rw [set_self]
      exact sound.tracks.ne_null fresh
    rw [initializeNvdec, Prog.wp_bind] at holds
    have next := holds.2 (some r) _ ⟨trivial, fun _ is => by cases is; exact fresh, rfl⟩
    change (ite _ _ _ : Calls _).wp Refs _ _ at next
    rw [if_neg some_] at next
    have next := next.2 true _ ⟨trivial, nofun, rfl⟩
    have next := next.2 none _ ⟨trivial, nofun, rfl⟩
    have tracks := (sound.tracks.assign .hwDeviceCtx fresh).clear .codecCtx
    exact ⟨(d.set .hwDeviceCtx r).set .codecCtx null, _, _, _, tracks, set_self .., rfl, next⟩
  · have next := holds.2 true _ ⟨trivial, nofun, rfl⟩
    have next := next.2 none _ ⟨trivial, nofun, rfl⟩
    exact ⟨_, _, _, _, sound.tracks.clear .codecCtx, set_self .., rfl, next⟩

/-- A decoder that is initialized again and gets no context is used without one. -/
theorem reinitialize_forbidden (sound : d.Sound lost h) (initialized : d.initialized = true) :
    ¬ (d.act .initializeDecoder >>= destroy).Permitted Refs h := by
  intro permitted
  have promised := Prog.wp_of_permitted permitted
  rw [Prog.wp_bind, act, Prog.wp_bind] at promised
  obtain ⟨d', lost', h', result, tracks, none_, still, next⟩ :=
    initializeDecoder_without sound promised
  change d'.destroy.wp Refs _ h' at next
  rw [destroy, if_pos (still.trans initialized)] at next
  have allowed : interface.Permits (fun _ => False) h' (.sendNull (d'.ptr .codecCtx)) := next.1
  have live := allowed.live _ (.head [])
  rw [none_] at live
  exact tracks.not_live live

/-- The device that `createDecoder` tries is released. -/
theorem createDecoder_spec :
    createDecoder.wp Refs (fun d h' => d.Sound ∅ h') .blank := by
  rw [createDecoder]
  refine use_spec (by simp) rfl rfl (fun _ => rfl) fun found => ?_
  split
  swap
  · exact sound_new .blank
  rw [Prog.wp_bind]
  refine Prog.wp_mono (obtains_hwDeviceCreate .blank) ?_
  intro answer h' is
  rcases answer with _ | r
  · obtain rfl : h' = .blank := is
    exact sound_new .blank
  · obtain ⟨fresh, rfl⟩ : Heap.blank.Fresh r ∧ h' = Heap.blank.make r := is
    have new_ := Tracks.blank.ne_null (F := Field) fresh
    have tracks : Tracks ((new true).set .hwDeviceCtx r).ptr ∅ (Heap.blank.make r) := by
      simpa [new, set] using Tracks.blank.assign Field.hwDeviceCtx fresh
    refine release_spec (f := .hwDeviceCtx) tracks (by simpa using new_) rfl rfl (by simp)
      (fun _ => rfl) ?_
    intro _ h'' tracks'
    refine sound_new ?_
    simpa [set, new, Function.update_idem] using tracks'

/-- A decoder as it was constructed, or as `createDecoder` returned it. -/
inductive Made : Decoder → Heap → Prop
  | constructed (hardware : Bool) : Made (new hardware) .blank
  | created {d : Decoder} {h : Heap} : Prog.Comes Refs createDecoder .blank (.done d) h → Made d h

theorem Made.sound (made : Made d h) : d.Sound ∅ h := by
  cases made with
  | constructed hardware => exact sound_new .blank
  | created comes => exact (Prog.permitted_of_wp createDecoder_spec).2 d h comes

/-- **When to initialize**: in every run in which no initialized decoder is initialized again,
whatever FFmpeg answers, a method and then the destructor use and release nothing they must not,
exactly unless the method initializes an initialized decoder. -/
theorem permitted_iff_anew {d₀ : Decoder} {h₀ : Heap} {a : Action} (made : Made d₀ h₀)
    (reached : Leads Anew d₀ h₀ d h) :
    (d.act a >>= destroy).Permitted Refs h ↔ Anew d a := by
  obtain ⟨lost, sound, -⟩ := made.sound.leads reached
  constructor
  · intro permitted same
    subst same
    rw [← Bool.not_eq_true]
    exact fun initialized => reinitialize_forbidden sound initialized permitted
  · intro anew
    have holds : (d.act a >>= destroy).wp Refs (fun _ _ => True) h := by
      rw [Prog.wp_bind]
      refine Prog.wp_mono (act_spec sound anew) ?_
      intro d' h' post
      rcases post with ⟨lost', sound', -, -⟩
      exact Prog.wp_mono (destroy_spec sound') fun _ _ _ => trivial
    exact (Prog.permitted_of_wp holds).1

/-- A decoder after `initialize`. -/
def opened (codecCtx frame : Ref) : Decoder :=
  { ((new false).set .codecCtx codecCtx).set .frame frame with initialized := true }

theorem comes_opened : Prog.Comes Refs ((new false).act .initializeDecoder) .blank
    (.done (opened 1 2)) ((Heap.blank.make 1).make 2) := by
  have run := Prog.Comes.start (L := Refs) (p := (new false).act .initializeDecoder) (s := .blank)
  have run := run.move (r := true) ⟨trivial, nofun, rfl⟩
  have run := run.move (r := some 1) ⟨trivial, Heap.below_blank.next, rfl⟩
  have run := run.move (r := ()) ⟨trivial, nofun, rfl⟩
  have run := run.move (r := true) ⟨trivial, nofun, rfl⟩
  exact run.move (r := some 2) ⟨trivial, Heap.below_blank.make.next, rfl⟩

theorem permitted_iff_anew_run : ∃ d h, Leads Anew (new false) .blank d h ∧
    d.initialized = true ∧ (d.act .stop >>= destroy).Permitted Refs h ∧
    ¬ (d.act .initializeDecoder >>= destroy).Permitted Refs h := by
  have reached : Leads Anew (new false) .blank _ _ := .act .start (fun _ => rfl) comes_opened
  exact ⟨_, _, reached, rfl, (permitted_iff_anew (.constructed false) reached).mpr nofun,
    fun permitted => nomatch (permitted_iff_anew (.constructed false) reached).mp permitted rfl⟩

/-- **Nothing is left** of a decoder that was only initialized while it held nothing, whatever
FFmpeg answered. -/
theorem once_leaves_nothing {d₀ : Decoder} {h₀ h' : Heap} (made : Made d₀ h₀)
    (reached : Leads Once d₀ h₀ d h)
    (destroyed : Prog.Comes Refs d.destroy h (.done ()) h') : h'.Owns ∅ :=
  (Prog.permitted_of_wp (destroy_spec (made.sound.leads_once reached))).2 () h' destroyed

theorem once_leaves_nothing_run : ∃ h', Prog.Comes Refs (opened 1 2).destroy
    ((Heap.blank.make 1).make 2) (.done ()) h' ∧ h'.Owns ∅ := by
  have reached : Leads Once (new false) .blank _ _ := .act .start (fun _ _ => rfl) comes_opened
  have run := Prog.Comes.start (L := Refs) (p := (opened 1 2).destroy)
    (s := (Heap.blank.make 1).make 2)
  have run := run.move (r := (0 : Nat)) ⟨trivial, nofun, rfl⟩
  have run := run.move (r := ()) ⟨trivial, nofun, rfl⟩
  have run := run.move (r := ()) ⟨trivial, nofun, rfl⟩
  have run := run.move (r := ()) ⟨trivial, nofun, rfl⟩
  exact ⟨_, run, once_leaves_nothing (.constructed false) reached run⟩

/-- **A restart leaks**: in every run in which no initialized decoder is initialized again, a
decoder that was stopped and then initialized with success never releases the frame it had. -/
theorem restart_leaks {result : Result} {d₀ d₁ d₂ d₃ : Decoder} {h₀ h₁ h₂ h₃ h₄ : Heap}
    (made : Made d₀ h₀) (reached : Leads Anew d₀ h₀ d h)
    (initialized : d.initialized = true) (stopped : Prog.Comes Refs d.stop h (.done d₁) h₁)
    (again : Prog.Comes Refs d₁.initializeDecoder h₁ (.done (d₂, result)) h₂)
    (succeeded : d₂.initialized = true) (later : Leads Anew d₂ h₂ d₃ h₃)
    (destroyed : Prog.Comes Refs d₃.destroy h₃ (.done ()) h₄) :
    h₄ (d.ptr .frame) = .owned := by
  obtain ⟨lost, sound, -⟩ := made.sound.leads reached
  obtain ⟨sound₁, rests, frame⟩ := (Prog.permitted_of_wp (stop_spec sound)).2 _ _ stopped
  obtain ⟨lost₂, sound₂, loses⟩ :=
    (Prog.permitted_of_wp (initializeDecoder_spec sound₁ rests)).2 _ _ again
  obtain ⟨lost₃, sound₃, kept⟩ := sound₂.leads later
  have owns := (Prog.permitted_of_wp (destroy_spec sound₃)).2 () h₄ destroyed
  have held : d₁.ptr .frame ∈ lost₂ := by
    refine loses.held succeeded .frame ?_ ?_
    · cases d₁.hardware <;> decide
    · rw [frame]
      exact (sound.ready initialized).frame
  rw [← frame]
  exact (owns _).mpr (kept held)

/-- The same decoder after `stop` and another `initialize`. -/
def restarted : Decoder :=
  { (((opened 1 2).set .codecCtx null).set .codecCtx 3).set .frame 4 with initialized := true }

/-- A packet is decoded between the restart and the destructor. -/
theorem restart_leaks_run : ∃ d h h₄, Prog.Comes Refs (destroy d) h (.done ()) h₄ ∧
    h₄ ((opened 1 2).ptr .frame) = .owned := by
  have reached : Leads Anew (new false) .blank _ _ := .act .start (fun _ => rfl) comes_opened
  have stop := Prog.Comes.start (L := Refs) (p := (opened 1 2).stop)
    (s := (Heap.blank.make 1).make 2)
  have stop := stop.move (r := (0 : Nat)) ⟨trivial, nofun, rfl⟩
  have stop := stop.move (r := ()) ⟨trivial, nofun, rfl⟩
  have stop := stop.move (r := ()) ⟨trivial, nofun, rfl⟩
  have seen : ((Heap.blank.make 1).make 2) 1 ≠ .unused := by decide
  have below := Heap.below_blank.make.make.release seen
  have again := Prog.Comes.start (L := Refs)
    (p := { (opened 1 2).set .codecCtx null with initialized := false }.initializeDecoder)
    (s := ((Heap.blank.make 1).make 2).release 1)
  have again := again.move (r := true) ⟨trivial, nofun, rfl⟩
  have again := again.move (r := some 3) ⟨trivial, below.next, rfl⟩
  have again := again.move (r := ()) ⟨trivial, nofun, rfl⟩
  have again := again.move (r := true) ⟨trivial, nofun, rfl⟩
  have again := again.move (r := some 4) ⟨trivial, below.make.next, rfl⟩
  have decode := Prog.Comes.start (L := Refs) (p := restarted.act .decodePacket)
    (s := ((((Heap.blank.make 1).make 2).release 1).make 3).make 4)
  have decode := decode.move (r := some (1 : Nat)) ⟨trivial, nofun, rfl⟩
  have decode := decode.move (r := ()) ⟨trivial, nofun, rfl⟩
  have decode := decode.move (r := ()) ⟨trivial, nofun, rfl⟩
  have decode := decode.move (r := ()) ⟨trivial, nofun, rfl⟩
  have decode := decode.move (r := ()) ⟨trivial, nofun, rfl⟩
  have later : Leads Anew restarted _ restarted _ := .act (a := .decodePacket) .start nofun decode
  have destroy := Prog.Comes.start (L := Refs) (p := restarted.destroy)
    (s := ((((Heap.blank.make 1).make 2).release 1).make 3).make 4)
  have destroy := destroy.move (r := (0 : Nat)) ⟨trivial, nofun, rfl⟩
  have destroy := destroy.move (r := ()) ⟨trivial, nofun, rfl⟩
  have destroy := destroy.move (r := ()) ⟨trivial, nofun, rfl⟩
  have destroy := destroy.move (r := ()) ⟨trivial, nofun, rfl⟩
  exact ⟨_, _, _, destroy,
    restart_leaks (.constructed false) reached rfl stop again rfl later destroy⟩

end Decoder

end Decode

end DirectLink
