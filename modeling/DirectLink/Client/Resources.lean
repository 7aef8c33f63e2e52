import DirectLink.Client.Holders

/-!
# The native resources of a camera session

What a `CameraSession` holds between two calls of its controller, and from it what holds of every
sequence of calls, whatever the libraries answer.

* `CameraSession.calls_permitted`: nothing is used or released that must not be, and the destructor
  may be called exactly where the session does not run.
* `CameraSession.only_buffers_left`: what a destroyed session has released, and what not.
* `CameraCapture.permitted_iff_sink`: the second release in `buildPipeline`.
-/

namespace DirectLink

namespace Native

open Handles

variable {found works : Prop} {g : State Obj Thread}

/-! ### The pipeline -/

namespace VideoPipeline

variable {v : VideoPipeline} {σ : Type} {P : σ → Heap → Prop} {callback : Callback σ}
variable {captured : σ}

/-- The devices hold their references, and the threads use no others. -/
structure Holds (v : VideoPipeline) (g : State Obj Thread) : Prop where
  capture : v.captureDevice.elim ((g.heap .capture).Owns ∅ ∧ g.lent .capture = none)
    fun c => c.Holds (g.heap .capture)
  encoder : v.encoder.elim ((g.heap .encoder).Owns ∅) fun e => e.Holds (g.heap .encoder)
  captureApart : CaptureApart g
  encodeApart : EncodeApart g
  joined : v.joinable = false → g.lent .encode = none

/-- Where no thread runs nothing is lent. -/
theorem free_of_none (capture : g.lent .capture = none) (encode : g.lent .encode = none) (o : Obj)
    (r : Ref) : ¬ g.Lent o r := by
  intro holds
  rcases holds with ⟨t, l, lent, _⟩
  cases t with
  | capture => simp [capture] at lent
  | encode => simp [encode] at lent

/-- Where the encode thread does not run only references of the capture device are lent. -/
theorem Holds.free (holds : v.Holds g) (rests : v.joinable = false) {o : Obj} (other : o ≠ .capture)
    (r : Ref) : ¬ g.Lent o r := by
  intro post
  rcases post with ⟨t, l, lent, member⟩
  cases t with
  | capture => exact other (holds.captureApart l lent _ member)
  | encode => simp [holds.joined rests] at lent

theorem Holds.on_publisher (holds : v.Holds g) (h' : Heap) : v.Holds (g.on .publisher h') :=
  ⟨by simpa using holds.capture, by simpa using holds.encoder, holds.captureApart,
    holds.encodeApart, holds.joined⟩

/-- The old device is destroyed. -/
theorem drop_device {device : Option CameraCapture}
    (holds : device.elim ((g.heap .capture).Owns ∅ ∧ g.lent .capture = none)
      fun c => c.Holds (g.heap .capture)) (apart : EncodeApart g) :
    (device.elim (pure ()) CameraCapture.destroy).wp (Session found works)
      (fun _ g' => ∃ h', g' = (g.lend .capture none).on .capture h' ∧ h'.Owns ∅) g := by
  cases device with
  | none =>
    refine ⟨g.heap .capture, ?_, holds.1⟩
    rw [State.lend_same holds.2, State.on_same]
  | some old => exact CameraCapture.destroy_spec holds apart

/-- The old encoder is destroyed, its packets pushed. -/
theorem drop_encoder {encoder : Option Encoder} (free : ∀ r, ¬ g.Lent .encoder r)
    (pushes : Pushes found works P callback) (kept : P captured (g.heap .publisher))
    (holds : encoder.elim ((g.heap .encoder).Owns ∅) fun e => e.Holds (g.heap .encoder)) :
    (encoder.elim (pure captured) fun old => old.destroy callback captured).wp
      (Session found works)
      (fun captured' g' => ∃ h' h'', g' = (g.on .publisher h').on .encoder h'' ∧
        P captured' h' ∧ h''.Owns ∅) g := by
  cases encoder with
  | none =>
    refine ⟨g.heap .publisher, g.heap .encoder, ?_, kept, holds⟩
    rw [State.on_same, State.on_same]
  | some old => exact Encoder.destroy_spec free pushes kept holds

theorem initializePipeline_spec (sink : found) (holds : v.Holds g) (rests : v.joinable = false)
    (pushes : Pushes found works P callback) (kept : P captured (g.heap .publisher))
    (config : CaptureConfig) :
    (v.initializePipeline config callback captured).wp (Session found works)
      (fun r g' => r.1.Holds g' ∧ r.1.joinable = false ∧ P r.2.1 (g'.heap .publisher) ∧
        (r.2.2 = .success → ∃ e, r.1.encoder = some e ∧ e.codecCtx = none)) g := by
  have encode := holds.joined rests
  simp only [initializePipeline]
  rw [Prog.wp_bind]
  refine Prog.wp_mono (drop_device holds.capture holds.encodeApart) ?_
  intro _ _ post
  rcases post with ⟨h₁, rfl, owns₁⟩
  have free := free_of_none (g := (g.lend .capture none).on .capture h₁) (by simp)
    (by simpa using encode)
  refine Prog.wp_on_bind (Prog.wp_mono (CameraCapture.initializeCapture_spec sink (free .capture)
    (by simpa using owns₁) config) ?_)
  intro post h₂ facts
  rcases post with ⟨device, result⟩
  rcases facts with ⟨device₂, _⟩
  rw [State.on_on]
  have noCapture : ((g.lend .capture none).on .capture h₂).lent .capture = none := by simp
  have noEncode : ((g.lend .capture none).on .capture h₂).lent .encode = none := by
    simpa using encode
  have held : v.encoder.elim ((((g.lend .capture none).on .capture h₂).heap .encoder).Owns ∅)
      fun e => e.Holds (((g.lend .capture none).on .capture h₂).heap .encoder) := by
    simpa using holds.encoder
  have kept₂ : P captured (((g.lend .capture none).on .capture h₂).heap .publisher) := by
    simpa using kept
  have device₂' : device.Holds (((g.lend .capture none).on .capture h₂).heap .capture) := by
    simpa using device₂
  generalize (g.lend .capture none).on .capture h₂ = g₂ at *
  dsimp only
  split
  · refine Prog.wp_on_bind (Prog.wp_mono Encoder.create_spec ?_)
    intro encoder _ post
    rcases post with ⟨rfl, closed⟩
    rw [State.on_same, Prog.wp_bind]
    refine Prog.wp_mono (drop_encoder (free_of_none noCapture noEncode .encoder) pushes kept₂
      held) ?_
    intro captured₃ _ post
    rcases post with ⟨h₃, h₄, rfl, kept₃, owns₄⟩
    refine ⟨⟨by simpa using device₂', ?_, ?_, ?_, ?_⟩, rests, by simpa using kept₃,
      fun _ => ⟨encoder, rfl, closed⟩⟩
    · simpa [Encoder.Holds, closed] using owns₄
    · intro l lent
      simp [noCapture] at lent
    · intro l lent
      simp [noEncode] at lent
    · simp [noEncode]
  · next failed =>
    refine ⟨⟨device₂', held, ?_, ?_, fun _ => noEncode⟩, rests, kept₂, fun is => (failed is).elim⟩
    · intro l lent
      simp [noCapture] at lent
    · intro l lent
      simp [noEncode] at lent

theorem start_spec (holds : v.Holds g) (rests : v.joinable = false)
    (closed : ∃ e, v.encoder = some e ∧ e.codecCtx = none) {used : List (Obj × Ref)}
    (live : ∀ u ∈ used, u.1 = .publisher ∧ (g.heap .publisher).Live u.2) :
    (v.start used).wp (Session found works)
      (fun r g' => r.1.Holds g' ∧ g'.heap .publisher = g.heap .publisher ∧
        (r.1.joinable = true ↔ r.2 = .success) ∧
        (r.2 = .success → ∃ l, g'.lent .encode = some l ∧ used ⊆ l)) g := by
  obtain ⟨encoder, isEncoder, noCodec⟩ := closed
  have encode := holds.joined rests
  cases isDevice : v.captureDevice with
  | none =>
    simp only [start, isDevice]
    exact ⟨holds, rfl, by simp [rests], nofun⟩
  | some device =>
    have capture := holds.capture
    have codec := holds.encoder
    rw [isDevice] at capture
    rw [isEncoder] at codec
    simp only [start, isDevice, isEncoder, rests]
    refine Prog.wp_on_bind (Prog.wp_mono (Encoder.initializeEncoder_spec noCodec codec) ?_)
    intro post h₁ codec₁
    rcases post with ⟨encoder', result⟩
    dsimp only
    have apart₁ : CaptureApart (g.on .encoder h₁) := holds.captureApart
    have apart₂ : EncodeApart (g.on .encoder h₁) := holds.encodeApart
    have capture₁ : device.Holds ((g.on .encoder h₁).heap .capture) := by simpa using capture
    split
    · rw [Prog.wp_bind]
      refine Prog.wp_mono (CameraCapture.start_spec capture₁ apart₂ apart₁) ?_
      intro post g₂ facts
      rcases post with ⟨device', result'⟩
      rcases facts with ⟨samePipeline, sameSink, step⟩
      have device₂ := capture₁.keeps step.kept samePipeline sameSink
      have codec₂ : encoder'.Holds (g₂.heap .encoder) := by
        simpa [step.others .encoder (by decide)] using codec₁
      have same₂ : g₂.heap .publisher = g.heap .publisher := by
        simp [step.others .publisher (by decide)]
      have encode₂ : g₂.lent .encode = none := step.encode.trans encode
      dsimp only
      split
      · refine ⟨⟨encode₂, ?_⟩, ?_⟩
        · intro u member
          rcases List.mem_append.mp member with own | is
          · obtain ⟨r, isCodec, rfl⟩ := List.mem_map.mp own
            exact .inl ((codec₂ r).mpr (Option.mem_toList.mp isCodec))
          · rw [(live u is).1, same₂]
            exact (live u is).2
        · intro _ _ same
          subst same
          refine ⟨⟨device₂, codec₂, ?_, ?_, nofun⟩, same₂, by simp, fun _ => ?_⟩
          · intro l lent
            rw [State.lend_lent_of_ne (by decide)] at lent
            exact step.apart l lent
          · intro l lent u member
            rw [State.lend_lent, Option.some_inj] at lent
            subst lent
            rcases List.mem_append.mp member with own | is
            · obtain ⟨_, _, rfl⟩ := List.mem_map.mp own
              exact nofun
            · rw [(live u is).1]
              decide
          · exact ⟨_, State.lend_lent, List.subset_append_right _ _⟩
      · next failed =>
        refine ⟨⟨device₂, codec₂, step.apart, ?_, fun _ => encode₂⟩, same₂, ?_, ?_⟩
        · intro l lent
          simp [encode₂] at lent
        · simpa using failed
        · exact fun is => (failed is).elim
    · next failed =>
      refine ⟨⟨capture₁, by simpa using codec₁, apart₁, apart₂, fun _ => encode⟩,
        State.on_heap_of_ne (by decide), by simp, nofun⟩

theorem stop_device (holds : v.Holds g) :
    (v.captureDevice.elim (pure none) fun device => some <$> device.stop).wp (Session found works)
      (fun c' g' => g' = g.lend .capture none ∧
        c'.elim ((g.heap .capture).Owns ∅) fun c => c.Holds (g.heap .capture)) g := by
  have capture := holds.capture
  cases is : v.captureDevice with
  | none =>
    rw [is] at capture
    exact ⟨(State.lend_same capture.2).symm, capture.1⟩
  | some device =>
    rw [is] at capture
    refine Prog.wp_bind.mpr (Prog.wp_mono (CameraCapture.stop_spec capture) ?_)
    intro c' g' post
    rcases post with ⟨samePipeline, sameSink, same⟩
    exact ⟨same, CameraCapture.Holds.keeps capture (.refl _) samePipeline sameSink⟩

theorem stop_encoder {encoder : Option Encoder} (free : ∀ r, ¬ g.Lent .encoder r)
    (pushes : Pushes found works P callback) (kept : P captured (g.heap .publisher))
    (holds : encoder.elim ((g.heap .encoder).Owns ∅) fun e => e.Holds (g.heap .encoder)) :
    (encoder.elim (pure (none, captured)) fun encoder => do
      let (encoder, captured) ← encoder.stop callback captured
      return (some encoder, captured)).wp (Session found works)
      (fun r g' => ∃ h' h'', g' = (g.on .publisher h').on .encoder h'' ∧ P r.2 h' ∧
        r.1.elim (h''.Owns ∅) fun e => e.Holds h'') g := by
  cases encoder with
  | none =>
    refine ⟨g.heap .publisher, g.heap .encoder, ?_, kept, holds⟩
    rw [State.on_same, State.on_same]
  | some encoder =>
    refine Prog.wp_bind.mpr (Prog.wp_mono (Encoder.stop_spec free pushes kept holds) ?_)
    intro post g' facts
    rcases post with ⟨e', captured'⟩
    rcases facts with ⟨h', h'', same, kept', owns, closed⟩
    refine ⟨h', h'', same, kept', ?_⟩
    dsimp only at closed
    simpa [Encoder.Holds, closed] using owns

theorem joinEncode_spec (joined : v.joinable = false → g.lent .encode = none)
    (pushes : Pushes found works P callback) (kept : P captured (g.heap .publisher))
    (holds : v.encoder.elim ((g.heap .encoder).Owns ∅) fun e => e.Holds (g.heap .encoder)) :
    (v.joinEncode callback captured).wp (Session found works)
      (fun captured' g' => ∃ h', g' = (g.on .publisher h').lend .encode none ∧ P captured' h')
      g := by
  rw [joinEncode]
  split
  · have encoded : (v.encoder.elim (pure captured) fun encoder =>
        encoder.encodeFrames callback captured).wp (Session found works)
        (fun captured' g' => ∃ h', g' = g.on .publisher h' ∧ P captured' h') g := by
      cases is : v.encoder with
      | none => exact ⟨g.heap .publisher, State.on_same.symm, kept⟩
      | some encoder =>
        rw [is] at holds
        exact Encoder.encodeFrames_spec pushes kept holds
    rw [Prog.wp_bind]
    refine Prog.wp_mono encoded ?_
    intro captured' _ post
    rcases post with ⟨h', rfl, kept'⟩
    refine ⟨trivial, ?_⟩
    intro _ _ same
    subst same
    exact ⟨h', rfl, kept'⟩
  · next rests =>
    rw [Bool.not_eq_true] at rests
    exact ⟨g.heap .publisher, by rw [State.on_same, State.lend_same (joined rests)], kept⟩

theorem stop_spec (holds : v.Holds g) (pushes : Pushes found works P callback)
    (kept : P captured (g.heap .publisher)) :
    (v.stop callback captured).wp (Session found works)
      (fun r g' => r.1.Holds g' ∧ r.1.joinable = false ∧ P r.2 (g'.heap .publisher)) g := by
  rw [stop, Prog.wp_bind]
  refine Prog.wp_mono (stop_device holds) ?_
  intro device _ post
  rcases post with ⟨rfl, capture⟩
  rw [Prog.wp_bind]
  refine Prog.wp_mono (joinEncode_spec (fun rests => ?_) pushes kept holds.encoder) ?_
  · rw [State.lend_lent_of_ne (by decide)]
    exact holds.joined rests
  intro captured₁ _ post
  rcases post with ⟨h₁, rfl, kept₁⟩
  rw [Prog.wp_bind]
  refine Prog.wp_mono (stop_encoder (free_of_none (by simp) (by simp) .encoder) pushes
    (by simpa using kept₁) (by simpa using holds.encoder)) ?_
  intro post _ facts
  rcases post with ⟨encoder, captured₂⟩
  rcases facts with ⟨h₂, h₃, rfl, kept₂, codec⟩
  refine ⟨⟨?_, by simpa using codec, ?_, ?_, fun _ => by simp⟩, rfl, by simpa using kept₂⟩
  · cases device with
    | none => simpa using capture
    | some device => simpa using capture
  · intro l lent
    simp at lent
  · intro l lent
    simp at lent

/-- The destructor leaves nothing of the devices. -/
theorem destroy_spec (holds : v.Holds g) (pushes : Pushes found works P callback)
    (kept : P captured (g.heap .publisher)) :
    (v.destroy callback captured).wp (Session found works)
      (fun captured' g' => (g'.heap .capture).Owns ∅ ∧ (g'.heap .encoder).Owns ∅ ∧
        P captured' (g'.heap .publisher)) g := by
  rw [destroy, Prog.wp_bind]
  refine Prog.wp_mono (joinEncode_spec holds.joined pushes kept holds.encoder) ?_
  intro captured₁ _ post
  rcases post with ⟨h₁, rfl, kept₁⟩
  have free : ∀ r, ¬ ((g.on .publisher h₁).lend .encode none).Lent .encoder r := by
    intro r post
    rcases post with ⟨t, l, lent, member⟩
    cases t with
    | capture =>
      rw [State.lend_lent_of_ne (by decide)] at lent
      cases holds.captureApart l lent _ member
    | encode => simp at lent
  rw [Prog.wp_bind]
  refine Prog.wp_mono (drop_encoder free pushes (by simpa using kept₁)
    (by simpa using holds.encoder)) ?_
  intro captured₂ _ post
  rcases post with ⟨h₂, h₃, rfl, kept₂, codec⟩
  rw [Prog.wp_bind]
  refine Prog.wp_mono (drop_device ?_ ?_) ?_
  · simpa using holds.capture
  · intro l lent
    simp at lent
  · intro _ _ post
    rcases post with ⟨h₄, rfl, capture⟩
    exact ⟨by simpa using capture, by simpa using codec, by simpa using kept₂⟩

end VideoPipeline

/-! ### The session -/

namespace CameraSession

variable {s : CameraSession}

/-- A packet leaves the publisher as it is but for the buffer and the count. -/
theorem pushes_of_holds (p : WHIPPublisher) :
    Pushes found works (fun p' h => p'.Holds works h ∧ p.Counts p') push := by
  intro p₁ g post
  rcases post with ⟨holds, same₁⟩
  refine Prog.wp_on (Prog.wp_mono (WHIPPublisher.pushPacket_spec holds) ?_)
  intro p₂ h' post
  rcases post with ⟨holds', same₂⟩
  exact ⟨h', rfl, holds', same₁.trans same₂⟩

/-- A publisher that does not run ignores a packet. -/
theorem pushes_of_rests (P : Heap → Prop) :
    Pushes found works (fun p h => p.running = false ∧ P h) push := by
  intro p g post
  rcases post with ⟨rests, kept⟩
  simp only [push, WHIPPublisher.pushPacket, rests]
  exact ⟨g.heap .publisher, State.on_same.symm, rests, kept⟩

/-- What holds of a session between the calls of its controller. -/
structure Holds (works : Prop) (s : CameraSession) (g : State Obj Thread) : Prop where
  pipeline : s.pipeline.Holds g
  publisher : s.whipPublisher.Holds works (g.heap .publisher)
  joinable : s.pipeline.joinable = s.isRunning
  running : s.whipPublisher.running = s.isRunning
  rests : works → s.isRunning = false → s.whipPublisher.pipeline = none
  lends : s.isRunning = true → ∃ appsrc l, s.whipPublisher.appsrc = some appsrc ∧
    g.lent .encode = some l ∧ (.publisher, appsrc) ∈ l

theorem holds_new : Holds works new .start := by
  refine ⟨⟨⟨Heap.owns_empty, rfl⟩, Heap.owns_empty, nofun, nofun, fun _ => rfl⟩,
    ⟨⟨∅, Heap.owns_empty, by simp [new, WHIPPublisher.new], by simp [new, WHIPPublisher.new]⟩,
      nofun⟩, rfl, rfl, fun _ _ => rfl, nofun⟩

theorem start_spec (sink : found) (holds : s.Holds works g) (whipUrl streamKey : String) :
    (s.start whipUrl streamKey).wp (Session found works) (fun r g' => r.1.Holds works g') g := by
  rw [start]
  split
  · exact holds
  next rests =>
  rw [Bool.not_eq_true] at rests
  have noLoop := holds.joinable.trans rests
  have noPush := holds.running.trans rests
  rw [Prog.wp_bind]
  refine Prog.wp_mono (VideoPipeline.initializePipeline_spec sink holds.pipeline noLoop
    (pushes_of_holds s.whipPublisher) ⟨holds.publisher, .refl _⟩ captureConfig) ?_
  intro post g₁ facts
  rcases post with ⟨pipeline, publisher₀, result⟩
  rcases facts with ⟨pipeline₁, noLoop₁, ⟨publisher₁, same₁⟩, closed⟩
  dsimp only at publisher₁ same₁ closed ⊢
  split
  · exact ⟨pipeline₁, publisher₁, noLoop₁.trans rests.symm, same₁.running.trans holds.running,
      fun does still => same₁.pipeline.trans (holds.rests does still),
      fun is => by simp [rests] at is⟩
  next made =>
  rw [Classical.not_not] at made
  refine Prog.wp_on_bind (Prog.wp_mono (WHIPPublisher.initializePublisher_spec
    (pipeline₁.free noLoop₁ (by decide)) publisher₁ (same₁.running.trans noPush)
    (fun does => same₁.pipeline.trans (holds.rests does rests)) whipUrl streamKey) ?_)
  intro post h₂ made₂
  rcases post with ⟨publisher, result'⟩
  have pipeline₂ := pipeline₁.on_publisher h₂
  dsimp only
  split
  · next failed =>
    exact ⟨pipeline₂, by simpa using made₂.holds, noLoop₁.trans rests.symm,
      made₂.rests.trans rests.symm, fun does _ => made₂.cleared does failed,
      fun is => by simp [rests] at is⟩
  next ready =>
  rw [Classical.not_not] at ready
  refine Prog.wp_on_bind (Prog.wp_mono (WHIPPublisher.start_spec
    (pipeline₂.free noLoop₁ (by decide)) (by simpa using made₂.holds)
    (by simpa using made₂.ready ready) made₂.rests) ?_)
  intro post h₃ started₃
  rcases post with ⟨publisher', result₃⟩
  rw [State.on_on]
  have pipeline₃ := pipeline₁.on_publisher h₃
  dsimp only
  split
  · next failed =>
    have still : publisher'.running = false := by
      rw [← Bool.not_eq_true, started₃.runs]
      exact failed
    rw [Prog.wp_bind]
    refine Prog.wp_mono (VideoPipeline.stop_spec pipeline₃ (pushes_of_holds publisher')
      ⟨by simpa using started₃.holds, .refl _⟩) ?_
    intro post g₄ facts
    rcases post with ⟨pipeline', publisher''⟩
    rcases facts with ⟨pipeline₄, noLoop₄, publisher₄, same₄⟩
    exact ⟨pipeline₄, publisher₄, noLoop₄.trans rests.symm,
      (same₄.running.trans still).trans rests.symm,
      fun does => (failed (started₃.success does)).elim, fun is => by simp [rests] at is⟩
  next pushing =>
  rw [Classical.not_not] at pushing
  have runs : publisher'.running = true := started₃.runs.mpr pushing
  obtain ⟨whip, appsrc, _, isSource, part⟩ := started₃.holds.ready runs
  have source : publisher'.appsrc = some appsrc := isSource
  rw [Prog.wp_bind]
  refine Prog.wp_mono (VideoPipeline.start_spec pipeline₃ noLoop₁ (closed made) ?_) ?_
  · intro u member
    obtain ⟨r, isSource', rfl⟩ := List.mem_map.mp member
    rw [source, Option.toList_some, List.mem_singleton] at isSource'
    subst isSource'
    exact ⟨rfl, by simpa using .inr ⟨whip, part⟩⟩
  intro post g₄ facts
  rcases post with ⟨pipeline', result₄⟩
  rcases facts with ⟨pipeline₄, same₄, loop₄, lends₄⟩
  have publisher₄ : publisher'.Holds works (g₄.heap .publisher) := by
    rw [same₄]
    simpa using started₃.holds
  dsimp only
  split
  · next failed =>
    have noLoop₄ : pipeline'.joinable = false := by
      rw [← Bool.not_eq_true, loop₄]
      exact failed
    refine Prog.wp_on_bind (Prog.wp_mono (WHIPPublisher.stop_spec
      (pipeline₄.free noLoop₄ (by decide)) publisher₄ runs) ?_)
    intro _ h₅ post
    rcases post with ⟨rfl, publisher₅⟩
    exact ⟨pipeline₄.on_publisher h₅, by simpa using publisher₅, noLoop₄.trans rests.symm,
      rests.symm, fun _ _ => rfl, fun is => by simp [rests] at is⟩
  · next all =>
    rw [Classical.not_not] at all
    obtain ⟨l, lent, used⟩ := lends₄ all
    refine ⟨pipeline₄, publisher₄, loop₄.mpr all, runs, nofun, fun _ =>
      ⟨appsrc, l, source, lent, used ?_⟩⟩
    simp [source]

theorem stop_spec (holds : s.Holds works g) :
    s.stop.wp (Session found works) (fun s' g' => s'.Holds works g' ∧ s'.isRunning = false) g := by
  rw [stop]
  split
  · next runs =>
    rw [Prog.wp_bind]
    refine Prog.wp_mono (VideoPipeline.stop_spec holds.pipeline
      (pushes_of_holds s.whipPublisher) ⟨holds.publisher, .refl _⟩) ?_
    intro post g₁ facts
    rcases post with ⟨pipeline, publisher⟩
    rcases facts with ⟨pipeline₁, noLoop₁, publisher₁, same₁⟩
    refine Prog.wp_on_bind (Prog.wp_mono (WHIPPublisher.stop_spec
      (pipeline₁.free noLoop₁ (by decide)) publisher₁
      (same₁.running.trans (holds.running.trans runs))) ?_)
    intro _ h₂ post
    rcases post with ⟨rfl, publisher₂⟩
    exact ⟨⟨pipeline₁.on_publisher h₂, by simpa using publisher₂, noLoop₁, rfl,
      fun _ _ => rfl, nofun⟩, rfl⟩
  · next rests => exact ⟨holds, by simpa using rests⟩

theorem serve_spec (sink : found) (holds : s.Holds works g) (request : Request) :
    (s.serve request).wp (Session found works) (fun s' g' => s'.Holds works g') g := by
  cases request with
  | start whipUrl streamKey =>
    exact Prog.wp_bind.mpr (start_spec sink holds whipUrl streamKey)
  | stop => exact Prog.wp_mono (stop_spec holds) fun _ _ post => post.1

theorem serveAll_spec (sink : found) (holds : s.Holds works g) (requests : List Request) :
    (serveAll requests s).wp (Session found works) (fun s' g' => s'.Holds works g') g := by
  induction requests generalizing s g with
  | nil => exact holds
  | cons request requests ih =>
    rw [serveAll, Prog.wp_bind]
    exact Prog.wp_mono (serve_spec sink holds request) fun s' g' holds' => ih holds'

/-- The destructor of a session that does not run. -/
theorem destroy_spec (holds : s.Holds works g) (rests : s.isRunning = false) :
    s.destroy.wp (Session found works)
      (fun _ g' => (g'.heap .capture).Owns ∅ ∧ (g'.heap .encoder).Owns ∅ ∧
        (works → ∃ buffers, (g'.heap .publisher).Owns buffers ∧
          buffers.encard = s.whipPublisher.frameCount)) g := by
  refine Prog.wp_on_bind (Prog.wp_mono (WHIPPublisher.destroy_spec
    (holds.pipeline.free (holds.joinable.trans rests) (by decide)) holds.publisher) ?_)
  intro publisher h₁ post
  rcases post with ⟨still, left⟩
  rw [Prog.wp_bind]
  refine Prog.wp_mono (VideoPipeline.destroy_spec (holds.pipeline.on_publisher h₁)
    (pushes_of_rests fun h => works → ∃ buffers : Set Ref, h.Owns buffers ∧
      buffers.encard = s.whipPublisher.frameCount) ⟨still, by simpa using left⟩) ?_
  intro publisher' g' post
  rcases post with ⟨capture, encoder, _, kept⟩
  exact ⟨capture, encoder, kept⟩

/-- The destructor of a session that runs releases a pipeline that the encode thread uses. -/
theorem destroy_forbidden (holds : s.Holds works g) (runs : s.isRunning = true) :
    ¬ s.destroy.Permitted (Session found works) g := by
  intro permitted
  have promised := Prog.wp_of_permitted permitted
  obtain ⟨appsrc, l, isSource, lent, member⟩ := holds.lends runs
  have running := holds.running.trans runs
  obtain ⟨whip, appsrc', isWhip, isSource', part⟩ := holds.publisher.ready running
  obtain rfl : appsrc' = appsrc := Option.some_inj.mp (isSource'.symm.trans isSource)
  obtain ⟨pipeline, ⟨whipPipeline, source, publishing, frameCount⟩, isRunning⟩ := s
  dsimp only at isWhip isSource running
  subst isWhip isSource running
  have next := promised.2 () g ⟨_, ⟨trivial, nofun, rfl⟩, State.on_same.symm⟩
  have next := next.2 none g ⟨_, ⟨trivial, nofun, rfl⟩, State.on_same.symm⟩
  have next := next.2 none g ⟨_, ⟨trivial, nofun, rfl⟩, State.on_same.symm⟩
  have next := next.2 .success g ⟨_, ⟨fun _ => nofun, nofun, rfl⟩, State.on_same.symm⟩
  have allowed : interface.Permits (g.Lent .publisher) (g.heap .publisher) (.unref whip) := next.1
  exact ((allowed.last whip rfl).2 appsrc' ⟨.encode, l, lent, member⟩).2 part

end CameraSession

/-! ### Whole runs -/

/-- **No use after release**: whatever the libraries answer to the calls of a controller, a session
uses, hands on and releases nothing it must not.  Its destructor may then be called exactly where
the session does not run. -/
theorem CameraSession.calls_permitted (requests : List CameraSession.Request) :
    (CameraSession.serveAll requests .new).Permitted (Session True False) .start ∧
      ∀ s g, Prog.Comes (Session True False) (CameraSession.serveAll requests .new) .start
        (.done s) g → (s.destroy.Permitted (Session True False) g ↔ s.isRunning = false) := by
  have first : CameraSession.new.Holds False .start := CameraSession.holds_new
  obtain ⟨permitted, ends⟩ := Prog.permitted_of_wp
    (CameraSession.serveAll_spec trivial first requests)
  refine ⟨permitted, ?_⟩
  intro s g comes
  have holds := ends s g comes
  constructor
  · intro allowed
    rw [← Bool.not_eq_true]
    exact fun runs => CameraSession.destroy_forbidden holds runs allowed
  · intro rests
    exact (Prog.permitted_of_wp (CameraSession.destroy_spec holds rests)).1

/-- A session that found a camera and was started. -/
def CameraSession.streaming : CameraSession :=
  ⟨⟨some ⟨some 0, some 1, true⟩, some ⟨true, some 0, true⟩, true⟩, ⟨some 0, some 1, true, 0⟩, true⟩

theorem CameraSession.comes_streaming (works : Prop) (rest : List CameraSession.Request) :
    ∃ g, Prog.Comes (Session True works)
        (serveAll (.start "https://whip" "key" :: rest) .new) .start (serveAll rest streaming) g ∧
      (g.heap .publisher).Below 7 ∧ (g.lent .capture).isSome = true := by
  have ended : ∀ g : State Obj Thread,
      (Session True works).Step g (.runs .capture) false (g.lend .capture none) := fun _ => rfl
  have unused := Heap.below_empty
  have made := unused.make.make.make.make.make
  have linked := (((made.give (by decide : 1 < 5) (by decide : 0 < 5)).give
    (by decide : 2 < 5) (by decide : 0 < 5)).give (by decide : 3 < 5) (by decide : 0 < 5)).give
    (by decide : 4 < 5) (by decide : 0 < 5)
  have run := Prog.Comes.start (L := Session True works)
    (p := serveAll (.start "https://whip" "key" :: rest) .new) (s := State.start)
  have run := run.move (r := none) ⟨_, ⟨trivial, nofun, rfl⟩, rfl⟩
  have run := run.move (r := (some 0, false)) ⟨_, ⟨trivial, unused.next, rfl⟩, rfl⟩
  have run := run.move (r := StateChange.success) ⟨_, ⟨nofun, nofun, rfl⟩, rfl⟩
  have run := run.move (r := (StateChange.success, GstState.ready)) ⟨_, ⟨nofun, nofun, rfl⟩, rfl⟩
  have run := run.move (r := some 1) ⟨_, ⟨fun _ => rfl, unused.make.next, rfl⟩, rfl⟩
  have run := run.move (r := true) ⟨_, ⟨trivial, nofun, rfl⟩, rfl⟩
  have run := run.move (r := some 0) ⟨_, ⟨trivial, unused.next, rfl⟩, rfl⟩
  have run := run.move (r := some 1) ⟨_, ⟨fun _ => rfl, unused.make.next, rfl⟩, rfl⟩
  have run := run.move (r := some 2) ⟨_, ⟨fun _ => rfl, unused.make.make.next, rfl⟩, rfl⟩
  have run := run.move (r := some 3) ⟨_, ⟨fun _ => rfl, unused.make.make.make.next, rfl⟩, rfl⟩
  have run := run.move (r := some 4) ⟨_, ⟨fun _ => rfl, unused.make.make.make.make.next, rfl⟩, rfl⟩
  have run := run.move (r := ()) ⟨_, ⟨trivial, nofun, rfl⟩, rfl⟩
  have run := run.move (r := ()) ⟨_, ⟨trivial, nofun, rfl⟩, rfl⟩
  have run := run.move (r := ()) ⟨_, ⟨trivial, nofun, rfl⟩, rfl⟩
  have run := run.move (r := ()) ⟨_, ⟨trivial, nofun, rfl⟩, rfl⟩
  have run := run.move (r := true) ⟨_, ⟨trivial, nofun, rfl⟩, rfl⟩
  have run := run.move (r := some 5) ⟨_, ⟨trivial, linked.next, rfl⟩, rfl⟩
  have run := run.move (r := some 6) ⟨_, ⟨trivial, linked.make.next, rfl⟩, rfl⟩
  have run := run.move (r := true) ⟨_, ⟨trivial, nofun, rfl⟩, rfl⟩
  have run := run.move (r := ()) ⟨_, ⟨trivial, nofun, rfl⟩, rfl⟩
  have run := run.move (r := ()) ⟨_, ⟨trivial, nofun, rfl⟩, rfl⟩
  have run := run.move (r := none) ⟨_, ⟨trivial, nofun, rfl⟩, rfl⟩
  have run := run.move (r := none) ⟨_, ⟨trivial, nofun, rfl⟩, rfl⟩
  have run := run.move (r := StateChange.success) ⟨_, ⟨fun _ => nofun, nofun, rfl⟩, rfl⟩
  have run := run.move (r := true) ⟨_, ⟨trivial, nofun, rfl⟩, rfl⟩
  have run := run.move (r := some 0) ⟨_, ⟨trivial, unused.next, rfl⟩, rfl⟩
  have run := run.move (r := true) ⟨_, ⟨trivial, nofun, rfl⟩, rfl⟩
  have run := run.move (ended _)
  have run := run.move (r := StateChange.success) ⟨_, ⟨nofun, nofun, rfl⟩, rfl⟩
  have run := run.move (r := (StateChange.success, GstState.playing)) ⟨_, ⟨nofun, nofun, rfl⟩, rfl⟩
  have run := run.move (r := ()) rfl
  have run := run.move (r := ()) rfl
  have seen : Status.owned ≠ Status.unused := nofun
  exact ⟨_, run, (linked.make.make.release (r := 6) seen).release (r := 5) seen, rfl⟩

/-- A session that was started must not be destroyed. -/
theorem CameraSession.calls_permitted_run : ∃ s g,
    Prog.Comes (Session True False)
      (CameraSession.serveAll [.start "https://whip" "key"] .new) .start (.done s) g ∧
    s.isRunning = true ∧ ¬ s.destroy.Permitted (Session True False) g := by
  obtain ⟨g, run, _⟩ := comes_streaming False []
  exact ⟨_, _, run, rfl, fun allowed => nomatch ((calls_permitted _).2 _ _ run).mp allowed⟩

/-- The same session stopped, after one packet. -/
def CameraSession.stopped : CameraSession :=
  ⟨⟨some ⟨some 0, some 1, false⟩, some ⟨true, none, false⟩, false⟩, ⟨none, none, false, 1⟩, false⟩

/-- **The second release**: `buildPipeline` is safe exactly where every pipeline that was parsed has
its sink; without one the pipeline is released and used again. -/
theorem CameraCapture.permitted_iff_sink {found works : Prop} (config : CaptureConfig) :
    (CameraCapture.new.initializeCapture config).Permitted (Refs found works fun _ => False)
      .empty ↔ found := by
  constructor
  · intro permitted
    by_contra missing
    have next := (Prog.wp_of_permitted permitted).2 none _ ⟨trivial, nofun, rfl⟩
    have next := next.2 (some 0, false) _ ⟨trivial, Heap.below_empty.next, rfl⟩
    have next := next.2 .success _ ⟨fun _ => nofun, nofun, rfl⟩
    have next := next.2 (.success, .ready) _ ⟨fun _ => ⟨nofun, nofun⟩, nofun, rfl⟩
    have next := next.2 none _ ⟨fun sink => (missing sink).elim, nofun, rfl⟩
    have next := next.2 .success _ ⟨fun _ => nofun, nofun, rfl⟩
    have next := next.2 () _ ⟨trivial, nofun, rfl⟩
    have allowed : interface.Permits (fun _ => False) ((Heap.empty.make 0).release 0)
      (.getBus 0) := next.1
    have live := allowed.live 0 (.head [])
    simp [Heap.Live, Heap.release] at live
  · intro sink
    exact (Prog.permitted_of_wp
      (CameraCapture.initializeCapture_spec sink (fun _ => id) Heap.owns_empty config)).1

end Native

end DirectLink
