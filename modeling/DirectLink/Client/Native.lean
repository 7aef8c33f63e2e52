import DirectLink.Lib.Handles

/-!
# What the camera's client takes from GStreamer and FFmpeg

The methods of `CameraCapture`, of the encoders, of `WHIPPublisher`, `VideoPipeline` and
`CameraSession` with every reference they obtain, hand on and release, in the order of the source.
What the libraries answer is not determined.  References that a method obtains and releases without
a branch between (caps, messages, packets) are left out, and so is what the capture thread does,
which releases in each turn of its loop what it obtained there.  What the encode thread does stands
where it is joined: until then no permitted call uses the encoder or the publisher.
-/

namespace DirectLink

namespace Native

open Handles

/-! ### The libraries -/

inductive GstState : Type
  | null
  | ready
  | paused
  | playing
  deriving DecidableEq

/-- `GstStateChangeReturn`. -/
inductive StateChange : Type
  | failure
  | success
  | async
  | noPreroll
  deriving DecidableEq

inductive Cmd : Type
  | elementFactoryFind (name : String)
  /-- The reply says also whether there was a parse error. -/
  | parseLaunch (description : String)
  | setState (pipeline : Ref) (state : GstState)
  | getState (pipeline : Ref) (timeout : Nat)
  | binGetByName (bin : Ref) (name : String)
  | getBus (element : Ref)
  /-- Take a message off the bus, and free it. -/
  | timedPop (bus : Ref) (timeout : Nat)
  | unref (object : Ref)
  | pipelineNew (name : String)
  | elementFactoryMake (factory name : String)
  | objectSet (element : Ref) (properties : List (String × String))
  | binAddMany (bin : Ref) (elements : List Ref)
  | linkMany (elements : List Ref)
  | requestPad (element : Ref) (name : String)
  | getStaticPad (element : Ref) (name : String)
  | padLink (src sink : Ref)
  | busAddWatch (bus : Ref)
  | busRemoveWatch (bus : Ref)
  | padAddProbe (pad : Ref)
  | endOfStream (appsrc : Ref)
  | bufferNewAllocate
  /-- The signal `push-buffer`, which takes a reference of its own. -/
  | pushBuffer (appsrc buffer : Ref)
  | findEncoderByName (name : String)
  | allocContext (name : String)
  | open2 (codecCtx : Ref)
  /-- Send the frames of a thread and receive the packets of each: so many. -/
  | encode (codecCtx : Ref)
  /-- Send the null frame and receive the packets that are left: so many. -/
  | flush (codecCtx : Ref)
  | freeContext (codecCtx : Ref)

@[reducible] def sig : Sig where
  Cmd := Cmd
  Reply
    | .elementFactoryFind _ | .binGetByName _ _ | .getBus _ | .pipelineNew _
    | .elementFactoryMake _ _ | .requestPad _ _ | .getStaticPad _ _ | .allocContext _ => Option Ref
    | .parseLaunch _ => Option Ref × Bool
    | .setState _ _ => StateChange
    | .getState _ _ => StateChange × GstState
    | .bufferNewAllocate => Ref
    | .timedPop _ _ | .linkMany _ | .padLink _ _ | .findEncoderByName _ | .open2 _ => Bool
    | .encode _ | .flush _ => Nat
    | .unref _ | .objectSet _ _ | .binAddMany _ _ | .busAddWatch _ | .busRemoveWatch _
    | .padAddProbe _ | .endOfStream _ | .pushBuffer _ _ | .freeContext _ => Unit

/-- What the commands do with references. -/
@[reducible] def interface : Interface where
  S := sig
  uses
    | .setState r _ | .getState r _ | .binGetByName r _ | .getBus r | .timedPop r _
    | .objectSet r _ | .requestPad r _ | .getStaticPad r _ | .busAddWatch r | .busRemoveWatch r
    | .padAddProbe r | .endOfStream r | .open2 r | .encode r | .flush r => [r]
    | .linkMany elements => elements
    | .padLink src sink => [src, sink]
    | .pushBuffer appsrc buffer => [appsrc, buffer]
    | .elementFactoryFind _ | .parseLaunch _ | .unref _ | .pipelineNew _ | .elementFactoryMake _ _
    | .binAddMany _ _ | .bufferNewAllocate | .findEncoderByName _ | .allocContext _
    | .freeContext _ => []
  gives
    | .binAddMany bin elements => elements.map fun element => (element, bin)
    | _ => []
  releases
    | .unref r | .freeContext r => some r
    | _ => none
  yields
    | .elementFactoryFind _, r | .binGetByName _ _, r | .getBus _, r | .pipelineNew _, r
    | .elementFactoryMake _ _, r | .requestPad _ _, r | .getStaticPad _ _, r
    | .allocContext _, r => r
    | .parseLaunch _, r => r.1
    | .bufferNewAllocate, r => some r
    | .setState _ _, _ | .getState _ _, _ | .timedPop _ _, _ | .linkMany _, _ | .padLink _ _, _
    | .findEncoderByName _, _ | .open2 _, _ | .unref _, _ | .objectSet _ _, _ | .binAddMany _ _, _
    | .busAddWatch _, _ | .busRemoveWatch _, _ | .padAddProbe _, _ | .endOfStream _, _
    | .pushBuffer _ _, _ | .encode _, _ | .flush _, _ | .freeContext _, _ => none

/-- A method on the references of one object. -/
abbrev Calls (α : Type) : Type := Prog sig α

abbrev call (c : Cmd) : Calls (sig.Reply c) := Prog.issue (S := sig) c

/-- Obtain a reference, where there is one, use it and release it. -/
def withRef (source : Calls (Option Ref)) (use : Ref → Calls Unit) : Calls Unit := do
  match ← source with
  | none => return ()
  | some r =>
    use r
    call (.unref r)

/-- `GST_SECOND`. -/
def second : Nat := 1000000000

/-- Whose references they are. -/
inductive Obj : Type
  | capture
  | encoder
  | publisher
  deriving DecidableEq

/-- `captureThread_` and `encodeThread_`. -/
inductive Thread : Type
  | capture
  | encode
  deriving DecidableEq

/-- A method that uses several objects or starts and joins threads. -/
abbrev Method (α : Type) : Type := Prog (Handles.sig sig Obj Thread) α

def spawn (t : Thread) (lent : List (Obj × Ref)) : Method Unit :=
  Prog.issue (S := Handles.sig sig Obj Thread) (.spawn t lent)

def join (t : Thread) : Method Unit := Prog.issue (S := Handles.sig sig Obj Thread) (.join t)

def runs (t : Thread) : Method Bool := Prog.issue (S := Handles.sig sig Obj Thread) (.runs t)

/-- What the packet callback does to what it has captured. -/
abbrev Callback (σ : Type) : Type := σ → Method σ

/-- The results of either library. -/
inductive Result : Type
  | success
  | errorDeviceNotFound
  | errorInitFailed
  | errorCaptureFailed
  | errorPipelineFailed
  | errorNotInitialized
  deriving DecidableEq

/-! ### CameraCapture -/

structure CaptureConfig : Type where
  devicePath : String
  width : Int
  height : Int
  framerate : Int

/-- A `CameraCapture`; `running_` is what `captureThread_` says of itself. -/
structure CameraCapture : Type where
  pipeline : Option Ref
  appsink : Option Ref
  /-- `captureThread_.joinable()` -/
  joinable : Bool

namespace CameraCapture

def new : CameraCapture := ⟨none, none, false⟩

/-- `config_` with the defaults. -/
def resolve (config : CaptureConfig) : CaptureConfig where
  devicePath := config.devicePath
  width := if config.width = 0 then 1280 else config.width
  height := if config.height = 0 then 720 else config.height
  framerate := if config.framerate = 0 then 30 else config.framerate

/-- The pipelines to try, in this order. -/
def candidates (config : CaptureConfig) (pipewire : Bool) : List String :=
  let size := ",width=" ++ toString config.width ++ ",height=" ++ toString config.height ++
    ",framerate=" ++ toString config.framerate ++ "/1"
  let rawCaps := "video/x-raw,format=I420" ++ size
  let sinkProps := "appsink name=sink sync=false max-buffers=4 drop=true emit-signals=false"
  let v4l2src := "v4l2src device=" ++ config.devicePath
  let target := "pipewiresrc target-object=" ++ config.devicePath ++ " do-timestamp=true"
  let source := "pipewiresrc do-timestamp=true"
  let decoded := " ! jpegdec ! videoconvert ! videoscale ! " ++ rawCaps ++ " ! " ++ sinkProps
  let raw := " ! videoconvert ! videoscale ! " ++ rawCaps ++ " ! " ++ sinkProps
  [v4l2src ++ " ! image/jpeg" ++ size ++
      " ! jpegdec ! videoconvert ! video/x-raw,format=I420 ! " ++ sinkProps,
    v4l2src ++ " ! video/x-raw" ++ size ++
      " ! videoconvert ! video/x-raw,format=I420 ! " ++ sinkProps] ++
    if pipewire then [target ++ decoded, source ++ decoded, target ++ raw, source ++ raw] else []

/-- Take an error off the bus of a pipeline. -/
def logPipelineError (pipeline : Ref) : Calls Unit :=
  withRef (call (.getBus pipeline)) fun bus => do
    let _ ← call (.timedPop bus (second / 2))

/-- One candidate of `buildPipeline`. -/
def tryCandidate (description : String) : Calls (Option (Ref × Ref)) := do
  match ← call (.parseLaunch description) with
  | (none, _) => return none
  | (some pipeline, true) =>
    call (.unref pipeline)
    return none
  | (some pipeline, false) =>
    let ret ← call (.setState pipeline .ready)
    let (ret, reached) ←
      if ret = .failure then pure (ret, .null) else call (.getState pipeline second)
    if ret ≠ .failure ∧ reached = .ready then
      match ← call (.binGetByName pipeline "sink") with
      | some appsink => return some (pipeline, appsink)
      | none =>
        let _ ← call (.setState pipeline .null)
        call (.unref pipeline)
        -- no `continue`: what follows uses the pipeline again
        abandon pipeline
    else abandon pipeline
where
  abandon (pipeline : Ref) : Calls (Option (Ref × Ref)) := do
    logPipelineError pipeline
    let _ ← call (.setState pipeline .null)
    call (.unref pipeline)
    return none

def tryCandidates : List String → Calls (Option (Ref × Ref))
  | [] => return none
  | description :: rest => do
    match ← tryCandidate description with
    | some found => return some found
    | none => tryCandidates rest

def keep (c : CameraCapture) : Option (Ref × Ref) → CameraCapture × Result
  | some (pipeline, appsink) =>
    ({ c with pipeline := some pipeline, appsink := some appsink }, .success)
  | none => (c, .errorDeviceNotFound)

def buildPipeline (c : CameraCapture) (config : CaptureConfig) :
    Calls (CameraCapture × Result) := do
  let factory ← call (.elementFactoryFind "pipewiresrc")
  match factory with
  | some factory => call (.unref factory)
  | none => pure ()
  let found ← tryCandidates (candidates config factory.isSome)
  return c.keep found

def initializeCapture (c : CameraCapture) (config : CaptureConfig) :
    Calls (CameraCapture × Result) :=
  c.buildPipeline (resolve config)

def start (c : CameraCapture) : Method (CameraCapture × Result) := do
  match c.pipeline with
  | none => return (c, .errorInitFailed)
  | some pipeline =>
    if (← runs .capture) || c.joinable then return (c, .errorInitFailed)
    else
      let ret ← (call (.setState pipeline .playing)).on .capture
      if ret = .failure then failed pipeline
      else
        let (ret, state) ← (call (.getState pipeline (5 * second))).on .capture
        if ret = .failure ∨ state ≠ .playing then failed pipeline
        else
          spawn .capture ((pipeline :: c.appsink.toList).map fun r => (.capture, r))
          return ({ c with joinable := true }, .success)
where
  failed (pipeline : Ref) : Method (CameraCapture × Result) := do
    (logPipelineError pipeline).on .capture
    let _ ← (call (.setState pipeline .null)).on .capture
    return (c, .errorCaptureFailed)

/-- `stop`, which does nothing once the thread has ended by itself. -/
def stop (c : CameraCapture) : Method CameraCapture := do
  if ← runs .capture then
    join .capture
    match c.pipeline with
    | some pipeline =>
      let _ ← (call (.setState pipeline .null)).on .capture
      return { c with joinable := false }
    | none => return { c with joinable := false }
  else return c

/-- The destructor. -/
def destroy (c : CameraCapture) : Method Unit := do
  let c ← c.stop
  match c.appsink with
  | some appsink => (call (.unref appsink)).on .capture
  | none => pure ()
  match c.pipeline with
  | some pipeline =>
    let _ ← (call (.setState pipeline .null)).on .capture
    (call (.unref pipeline)).on .capture
  | none => return ()

end CameraCapture

/-! ### The encoders -/

/-- A `SoftwareEncoder` or an `NVENCEncoder`. -/
structure Encoder : Type where
  hardware : Bool
  codecCtx : Option Ref
  running : Bool

namespace Encoder

/-- What the encoder asks FFmpeg for. -/
def codecName (e : Encoder) : String := if e.hardware then "h264_nvenc" else "libx264"

/-- `createEncoder` for the default type: hardware where there is some. -/
def create : Calls Encoder := do
  let hardware ← call (.findEncoderByName "h264_nvenc")
  return ⟨hardware, none, false⟩

def initializeEncoder (e : Encoder) : Calls (Encoder × Result) := do
  if ← call (.findEncoderByName e.codecName) then
    match ← call (.allocContext e.codecName) with
    | none => return ({ e with codecCtx := none }, .errorInitFailed)
    | some codecCtx =>
      if ← call (.open2 codecCtx) then
        return ({ e with codecCtx := some codecCtx, running := true }, .success)
      else return ({ e with codecCtx := some codecCtx }, .errorInitFailed)
  else return (e, if e.hardware then .errorDeviceNotFound else .errorInitFailed)

variable {σ : Type}

/-- So many packets go to the packet callback. -/
def deliver (callback : Callback σ) : Nat → σ → Method σ
  | 0, captured => return captured
  | left + 1, captured => do
    let captured ← callback captured
    deliver callback left captured

/-- The calls of `encodeFrame` that the encode thread makes. -/
def encodeFrames (e : Encoder) (callback : Callback σ) (captured : σ) : Method σ := do
  match e.codecCtx with
  | none => return captured
  | some codecCtx =>
    if e.running then
      let received ← (call (.encode codecCtx)).on .encoder
      deliver callback received captured
    else return captured

def stop (e : Encoder) (callback : Callback σ) (captured : σ) : Method (Encoder × σ) := do
  match e.codecCtx with
  | none => return (e, captured)
  | some codecCtx =>
    let left ← (call (.flush codecCtx)).on .encoder
    let captured ← deliver callback left captured
    (call (.freeContext codecCtx)).on .encoder
    return ({ e with codecCtx := none, running := false }, captured)

/-- The destructor. -/
def destroy (e : Encoder) (callback : Callback σ) (captured : σ) : Method σ := do
  let (e, captured) ← if e.running then e.stop callback captured else pure (e, captured)
  match e.codecCtx with
  | some codecCtx =>
    (call (.freeContext codecCtx)).on .encoder
    return captured
  | none => return captured

end Encoder

/-! ### WHIPPublisher -/

structure WHIPPublisher : Type where
  pipeline : Option Ref
  appsrc : Option Ref
  running : Bool
  /-- How many packets were pushed; never set back. -/
  frameCount : Nat

namespace WHIPPublisher

def new : WHIPPublisher := ⟨none, none, false, 0⟩

/-- What `initialize` does where the elements cannot be linked. -/
def discard (p : WHIPPublisher) (pipeline : Ref) : Calls (WHIPPublisher × Result) := do
  let _ ← call (.setState pipeline .null)
  call (.unref pipeline)
  return ({ p with pipeline := none }, .errorPipelineFailed)

/-- From the link of the pads on: the bus is watched and the pad of `appsrc` probed. -/
def watch (p : WHIPPublisher) (pipeline appsrc : Ref) : Calls (WHIPPublisher × Result) := do
  withRef (call (.getBus pipeline)) fun bus => call (.busAddWatch bus)
  withRef (call (.getStaticPad appsrc "src")) fun pad => call (.padAddProbe pad)
  return (p, .success)

/-- From the link of the elements on. -/
def connect (p : WHIPPublisher) (pipeline appsrc h264parse rtph264pay whipsink : Ref) :
    Calls (WHIPPublisher × Result) := do
  if ← call (.linkMany [appsrc, h264parse, rtph264pay]) then
    match ← call (.requestPad whipsink "sink_%u") with
    | none => p.discard pipeline
    | some whipSinkPad =>
      match ← call (.getStaticPad rtph264pay "src") with
      | none =>
        call (.unref whipSinkPad)
        p.discard pipeline
      | some paySrcPad =>
        let linked ← call (.padLink paySrcPad whipSinkPad)
        call (.unref paySrcPad)
        call (.unref whipSinkPad)
        if linked then p.watch pipeline appsrc else p.discard pipeline
  else p.discard pipeline

/-- From the elements on. -/
def link (p : WHIPPublisher) (pipeline appsrc h264parse rtph264pay whipsink : Ref)
    (whipUrl streamKey : String) : Calls (WHIPPublisher × Result) := do
  call (.objectSet appsrc [("is-live", "TRUE"), ("format", "GST_FORMAT_TIME"), ("block", "FALSE"),
    ("max-bytes", "524288"), ("min-latency", "0"), ("max-latency", "0")])
  call (.objectSet rtph264pay [("config-interval", "1")])
  call (.objectSet whipsink [("whip-endpoint", whipUrl), ("auth-token", streamKey),
    ("use-link-headers", "TRUE"), ("stun-server", "stun://stun.l.google.com:19302")])
  call (.binAddMany pipeline [appsrc, h264parse, rtph264pay, whipsink])
  p.connect pipeline appsrc h264parse rtph264pay whipsink

def initializePublisher (p : WHIPPublisher) (whipUrl streamKey : String) :
    Calls (WHIPPublisher × Result) := do
  match ← call (.pipelineNew "whip-pipeline") with
  | none => return ({ p with pipeline := none }, .errorPipelineFailed)
  | some pipeline =>
    let appsrc ← call (.elementFactoryMake "appsrc" "video-source")
    let h264parse ← call (.elementFactoryMake "h264parse" "h264-parser")
    let rtph264pay ← call (.elementFactoryMake "rtph264pay" "rtp-payload")
    let whipsink ← call (.elementFactoryMake "whipsink" "whip-sink")
    let p := { p with pipeline := some pipeline, appsrc }
    match appsrc, h264parse, rtph264pay, whipsink with
    | some appsrc, some h264parse, some rtph264pay, some whipsink =>
      p.link pipeline appsrc h264parse rtph264pay whipsink whipUrl streamKey
    | _, _, _, _ => return (p, .errorPipelineFailed)

/-- Log what is on the bus; the loop over its messages is one command. -/
def logBusError (p : WHIPPublisher) : Calls Unit := do
  match p.pipeline with
  | none => return ()
  | some pipeline =>
    withRef (call (.getBus pipeline)) fun bus => do
      let _ ← call (.timedPop bus 0)

def start (p : WHIPPublisher) : Calls (WHIPPublisher × Result) := do
  match p.pipeline with
  | none => return (p, .errorNotInitialized)
  | some pipeline =>
    if p.running then return (p, .success)
    else
      match ← call (.setState pipeline .playing) with
      | .failure =>
        p.logBusError
        return (p, .errorPipelineFailed)
      | .async =>
        match ← call (.getState pipeline (20 * second)) with
        | (.failure, _) =>
          p.logBusError
          let _ ← call (.setState pipeline .null)
          return (p, .errorPipelineFailed)
        | (.async, _) =>
          let _ ← call (.setState pipeline .null)
          return (p, .errorPipelineFailed)
        | _ => return ({ p with running := true }, .success)
      | _ => return ({ p with running := true }, .success)

/-- `stop`; `appsrc_` is not null where the publisher runs. -/
def stop (p : WHIPPublisher) : Calls WHIPPublisher := do
  match p.pipeline with
  | none => return p
  | some pipeline =>
    if p.running then
      match p.appsrc with
      | some appsrc => call (.endOfStream appsrc)
      | none => pure ()
      withRef (call (.getBus pipeline)) fun bus => do
        let _ ← call (.timedPop bus (10 * second))
      withRef (call (.getBus pipeline)) fun bus => call (.busRemoveWatch bus)
      let _ ← call (.setState pipeline .null)
      call (.unref pipeline)
      return { p with pipeline := none, appsrc := none, running := false }
    else return p

def pushPacket (p : WHIPPublisher) : Calls WHIPPublisher := do
  if p.running then
    let buffer ← call .bufferNewAllocate
    let p := { p with frameCount := p.frameCount + 1 }
    match p.appsrc with
    | none =>
      call (.unref buffer)
      return p
    | some appsrc =>
      -- no `gst_buffer_unref` after the signal
      call (.pushBuffer appsrc buffer)
      return p
  else return p

/-- The destructor, with what it leaves in the fields. -/
def destroy (p : WHIPPublisher) : Calls WHIPPublisher := do
  let p ← if p.running then p.stop else pure p
  match p.pipeline with
  | some pipeline =>
    call (.unref pipeline)
    return p
  | none => return p

end WHIPPublisher

/-! ### VideoPipeline -/

structure VideoPipeline : Type where
  captureDevice : Option CameraCapture
  encoder : Option Encoder
  /-- `encodeThread_.joinable()` -/
  joinable : Bool

namespace VideoPipeline

def new : VideoPipeline := ⟨none, none, false⟩

variable {σ : Type}

/-- What the encode thread did, and its end when `encodeThread_` is assigned to or destroyed. -/
def joinEncode (v : VideoPipeline) (callback : Callback σ) (captured : σ) : Method σ := do
  if v.joinable then
    let captured ←
      v.encoder.elim (pure captured) fun encoder => encoder.encodeFrames callback captured
    join .encode
    return captured
  else return captured

/-- Make a new capture device and a new encoder in the place of the old ones.  The packets of the
old encoder go to `callback`. -/
def initializePipeline (v : VideoPipeline) (config : CaptureConfig) (callback : Callback σ)
    (captured : σ) : Method (VideoPipeline × σ × Result) := do
  v.captureDevice.elim (pure ()) CameraCapture.destroy
  let (device, result) ← (CameraCapture.new.initializeCapture config).on .capture
  let v := { v with captureDevice := some device }
  if result = .success then
    let encoder ← Encoder.create.on .encoder
    let captured ← v.encoder.elim (pure captured) fun old => old.destroy callback captured
    return ({ v with encoder := some encoder }, captured, .success)
  else return (v, captured, result)

/-- `used` is what the packet callback uses; the encode thread uses the codec as well. -/
def start (v : VideoPipeline) (used : List (Obj × Ref)) : Method (VideoPipeline × Result) := do
  match v.captureDevice, v.encoder with
  | some device, some encoder =>
    if v.joinable then return (v, .errorInitFailed)
    else
      let (encoder, result) ← encoder.initializeEncoder.on .encoder
      let v := { v with encoder := some encoder }
      if result = .success then
        let (device, result) ← device.start
        let v := { v with captureDevice := some device }
        if result = .success then
          spawn .encode (encoder.codecCtx.toList.map (fun r => (.encoder, r)) ++ used)
          return ({ v with joinable := true }, .success)
        else return (v, result)
      else return (v, .errorInitFailed)
  | _, _ => return (v, .errorInitFailed)

def stop (v : VideoPipeline) (callback : Callback σ) (captured : σ) :
    Method (VideoPipeline × σ) := do
  let captureDevice ← v.captureDevice.elim (pure none) fun device => some <$> device.stop
  let captured ← v.joinEncode callback captured
  let (encoder, captured) ← v.encoder.elim (pure (none, captured)) fun encoder => do
    let (encoder, captured) ← encoder.stop callback captured
    return (some encoder, captured)
  return (⟨captureDevice, encoder, false⟩, captured)

/-- The destructor: the members, last to first. -/
def destroy (v : VideoPipeline) (callback : Callback σ) (captured : σ) : Method σ := do
  let captured ← v.joinEncode callback captured
  let captured ← v.encoder.elim (pure captured) fun encoder => encoder.destroy callback captured
  v.captureDevice.elim (pure ()) CameraCapture.destroy
  return captured

end VideoPipeline

/-! ### CameraSession -/

structure CameraSession : Type where
  pipeline : VideoPipeline
  whipPublisher : WHIPPublisher
  isRunning : Bool

namespace CameraSession

def new : CameraSession := ⟨.new, .new, false⟩

def captureConfig : CaptureConfig := ⟨"/dev/video0", 1280, 720, 30⟩

/-- The packet callback. -/
def push : Callback WHIPPublisher := fun whipPublisher => whipPublisher.pushPacket.on .publisher

def start (s : CameraSession) (whipUrl streamKey : String) : Method (CameraSession × Bool) := do
  if s.isRunning then return (s, false)
  else
    let (pipeline, whipPublisher, result) ←
      s.pipeline.initializePipeline captureConfig push s.whipPublisher
    let s := { s with pipeline, whipPublisher }
    if result ≠ .success then return (s, false)
    else
      let (whipPublisher, result) ←
        (s.whipPublisher.initializePublisher whipUrl streamKey).on .publisher
      let s := { s with whipPublisher }
      if result ≠ .success then return (s, false)
      else
        let (whipPublisher, result) ← s.whipPublisher.start.on .publisher
        let s := { s with whipPublisher }
        if result ≠ .success then
          let (pipeline, whipPublisher) ← s.pipeline.stop push s.whipPublisher
          return ({ s with pipeline, whipPublisher }, false)
        else
          let (pipeline, result) ←
            s.pipeline.start (s.whipPublisher.appsrc.toList.map fun r => (.publisher, r))
          let s := { s with pipeline }
          if result ≠ .success then
            let whipPublisher ← s.whipPublisher.stop.on .publisher
            return ({ s with whipPublisher }, false)
          else return ({ s with isRunning := true }, true)

def stop (s : CameraSession) : Method CameraSession := do
  if s.isRunning then
    let (pipeline, whipPublisher) ← s.pipeline.stop push s.whipPublisher
    let whipPublisher ← whipPublisher.stop.on .publisher
    return ⟨pipeline, whipPublisher, false⟩
  else return s

/-- The destructor: the members, last to first. -/
def destroy (s : CameraSession) : Method Unit := do
  let whipPublisher ← s.whipPublisher.destroy.on .publisher
  let _ ← s.pipeline.destroy push whipPublisher

/-- A call that the controller makes. -/
inductive Request : Type
  | start (whipUrl streamKey : String)
  | stop

def serve (s : CameraSession) : Request → Method CameraSession
  | .start whipUrl streamKey => return (← s.start whipUrl streamKey).1
  | .stop => s.stop

/-- The calls one after another. -/
def serveAll : List Request → CameraSession → Method CameraSession
  | [], s => return s
  | request :: requests, s => do
    let s ← s.serve request
    serveAll requests s

end CameraSession

end Native

end DirectLink
