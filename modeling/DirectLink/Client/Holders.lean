import DirectLink.Client.Native
import Mathlib.Data.Set.Card

/-!
# What each object of the camera's client holds

Which references a capture device, an encoder and a publisher are to release, and a spec for each of
their methods: what it takes and releases, whatever the libraries answer.
-/

namespace DirectLink

namespace Native

open Handles

/-- What the libraries answer.  `found`: a pipeline that was parsed has its sink.  `works`: elements
are there and changes of state succeed. -/
def Expects (found works : Prop) : (c : Cmd) → sig.Reply c → Prop
  | .binGetByName _ _, r => found → r.isSome = true
  | .elementFactoryMake _ _, r => works → r.isSome = true
  | .setState _ _, r => works → r ≠ .failure
  | .getState _ _, r => works → r.1 ≠ .failure ∧ r.1 ≠ .async
  | _, _ => True

/-- The references of one object. -/
abbrev Refs (found works : Prop) (lent : Ref → Prop) : Logic sig :=
  interface.logic (Expects found works) lent

variable {found works : Prop} {lent : Ref → Prop} {h : Heap}

/-! ### Detours -/

/-- A call that may yield a reference. -/
def Yields (source : Calls (Option Ref)) (found works : Prop) (lent : Ref → Prop) (h : Heap) :
    Prop :=
  source.wp (Refs found works lent)
    (fun r h' => r.elim (h' = h) fun r => h.Fresh r ∧ h' = h.make r) h

theorem yields_getBus {element : Ref} (live : h.Live element) :
    Yields (call (.getBus element)) found works lent h := by
  refine Interface.wp_yield (by simpa using live) rfl rfl ?_ ?_
  · intro _ same _
    subst same
    exact rfl
  · intro _ bus same _ fresh
    subst same
    exact ⟨fresh, rfl⟩

theorem yields_getStaticPad {element : Ref} (live : h.Live element) (name : String) :
    Yields (call (.getStaticPad element name)) found works lent h := by
  refine Interface.wp_yield (by simpa using live) rfl rfl ?_ ?_
  · intro _ same _
    subst same
    exact rfl
  · intro _ pad same _ fresh
    subst same
    exact ⟨fresh, rfl⟩

theorem withRef_spec {source : Calls (Option Ref)} {use : Ref → Calls Unit}
    (free : ∀ x, ¬ lent x) (yields : Yields source found works lent h)
    (used : ∀ (r : Ref) (h : Heap), h.Live r →
      (use r).wp (Refs found works lent) (fun _ h' => h' = h) h) :
    (withRef source use).wp (Refs found works lent) (fun _ h' => h.Keeps h') h := by
  rw [withRef, Prog.wp_bind]
  refine Prog.wp_mono yields ?_
  intro answer h' is
  rcases answer with _ | r
  · obtain rfl : h' = h := is
    exact .refl _
  · obtain ⟨fresh, rfl⟩ : h.Fresh r ∧ h' = h.make r := is
    have own : h.make r r = .owned := Function.update_self ..
    dsimp only
    rw [Prog.wp_bind]
    refine Prog.wp_mono (used r _ (.inl own)) ?_
    intro _ _ same
    subst same
    refine Interface.wp_release own (fun x is => (free x is).elim) rfl rfl rfl (fun _ => rfl) ?_
    intro _ _
    exact .release fresh (.refl _)

/-! ### The candidates of the capture device -/

namespace CameraCapture

theorem logPipelineError_spec {pipeline : Ref} (free : ∀ x, ¬ lent x)
    (own : h pipeline = .owned) :
    (logPipelineError pipeline).wp (Refs found works lent) (fun _ h' => h.Keeps h') h := by
  refine withRef_spec free (yields_getBus (.inl own)) ?_
  intro bus h' live
  exact Interface.wp_use (by simpa using live) rfl rfl (fun _ => rfl) fun _ _ => rfl

/-- Of a pipeline and its sink there is one reference each, or there is nothing. -/
def Held : Option Ref → Option Ref → Heap → Prop
  | none, none, h => h.Owns ∅
  | some pipeline, some appsink, h => pipeline ≠ appsink ∧ h.Owns {pipeline, appsink}
  | _, _, _ => False

def Holds (c : CameraCapture) (h : Heap) : Prop := Held c.pipeline c.appsink h

theorem Holds.keeps {c c' : CameraCapture} {h' : Heap} (holds : c.Holds h) (kept : h.Keeps h')
    (samePipeline : c'.pipeline = c.pipeline) (sameSink : c'.appsink = c.appsink) :
    c'.Holds h' := by
  rw [Holds, samePipeline, sameSink]
  obtain ⟨_ | pipeline, _ | appsink, joinable⟩ := c
  · exact kept.owns holds
  · exact holds
  · exact holds
  · exact ⟨holds.1, kept.owns holds.2⟩

theorem abandon_spec {pipeline : Ref} (free : ∀ x, ¬ lent x) (owns : h.Owns {pipeline}) :
    (tryCandidate.abandon pipeline).wp (Refs found works lent)
      (fun r h' => r = none ∧ h'.Owns ∅) h := by
  simp only [tryCandidate.abandon, call, Prog.issue, Prog.call_bind, Prog.done_bind, Prog.pure_eq]
  rw [Prog.wp_bind]
  refine Prog.wp_mono (logPipelineError_spec free ((owns pipeline).mpr rfl)) ?_
  intro _ h' kept
  have owns' := kept.owns owns
  have own := (owns' pipeline).mpr rfl
  refine Interface.wp_use (by simp [Heap.Live, own]) rfl rfl (fun _ => rfl) ?_
  intro _ _
  refine Interface.wp_release own (fun x is => (free x is).elim) rfl rfl rfl (fun _ => rfl) ?_
  intro _ _
  exact ⟨rfl, owns'.release_only⟩

theorem tryCandidate_spec (sink : found) (free : ∀ x, ¬ lent x) (owns : h.Owns ∅)
    (description : String) :
    (tryCandidate description).wp (Refs found works lent)
      (fun r h' => Held (r.map Prod.fst) (r.map Prod.snd) h') h := by
  simp only [tryCandidate, call, Prog.issue, Prog.call_bind, Prog.done_bind, Prog.pure_eq]
  refine Interface.wp_yield (by simp) rfl rfl ?_ ?_
  · intro holds agrees _
    rcases holds with ⟨_, failed⟩
    subst agrees
    exact owns
  · intro holds pipeline agrees _ fresh
    rcases holds with ⟨_, failed⟩
    subst agrees
    have owns' := owns.make_only pipeline
    have own := (owns' pipeline).mpr rfl
    have abandoned : (tryCandidate.abandon pipeline).wp (Refs found works lent)
        (fun r h' => Held (r.map Prod.fst) (r.map Prod.snd) h') (h.make pipeline) := by
      refine Prog.wp_mono (abandon_spec free owns') ?_
      intro _ h' holds
      rcases holds with ⟨rfl, nothing⟩
      exact nothing
    cases failed with
    | true =>
      refine Interface.wp_release own (fun x is => (free x is).elim) rfl rfl rfl
        (fun _ => rfl) ?_
      intro _ _
      exact owns'.release_only
    | false =>
      refine Interface.wp_use (by simp [Heap.Live, own]) rfl rfl (fun _ => rfl) ?_
      intro ret _
      split
      · next failure =>
        rw [if_neg fun reached => reached.1 failure]
        exact abandoned
      · refine Interface.wp_use (by simp [Heap.Live, own]) rfl rfl (fun _ => rfl) ?_
        intro _ _
        split
        · refine Interface.wp_yield (by simp [Heap.Live, own]) rfl rfl ?_ ?_
          · intro _ agrees expected
            subst agrees
            exact absurd (expected sink) (by simp)
          · intro _ appsink agrees _ fresh'
            subst agrees
            refine ⟨?_, ?_⟩
            · intro same
              exact owns'.notMem fresh'.1 (Eq.symm same)
            · have both := owns'.make appsink
              rwa [Set.pair_comm] at both
        · exact abandoned

theorem tryCandidates_spec (sink : found) (free : ∀ x, ¬ lent x) (owns : h.Owns ∅)
    (descriptions : List String) :
    (tryCandidates descriptions).wp (Refs found works lent)
      (fun r h' => Held (r.map Prod.fst) (r.map Prod.snd) h') h := by
  induction descriptions generalizing h with
  | nil => exact owns
  | cons description rest ih =>
    rw [tryCandidates, Prog.wp_bind]
    refine Prog.wp_mono (tryCandidate_spec sink free owns description) ?_
    intro answer h' held
    rcases answer with _ | pair
    · exact ih held
    · exact held

theorem initializeCapture_spec (sink : found) (free : ∀ x, ¬ lent x) (owns : h.Owns ∅)
    (config : CaptureConfig) :
    (CameraCapture.new.initializeCapture config).wp (Refs found works lent)
      (fun r h' => r.1.Holds h' ∧ r.1.joinable = false) h := by
  have tried : ∀ {h' : Heap} (descriptions : List String), h'.Owns ∅ →
      (tryCandidates descriptions >>= fun r => Prog.done (CameraCapture.new.keep r)).wp
        (Refs found works lent) (fun r h' => r.1.Holds h' ∧ r.1.joinable = false) h' := by
    intro h' descriptions owns'
    rw [Prog.wp_bind]
    refine Prog.wp_mono (tryCandidates_spec sink free owns' descriptions) ?_
    intro answer h'' held
    rcases answer with _ | ⟨pipeline, appsink⟩
    · exact ⟨held, rfl⟩
    · exact ⟨held, rfl⟩
  simp only [initializeCapture, buildPipeline, call, Prog.issue, Prog.call_bind, Prog.done_bind,
    Prog.pure_eq]
  refine Interface.wp_yield (by simp) rfl rfl ?_ ?_
  · intro _ same _
    subst same
    exact tried _ owns
  · intro _ factory same _ fresh
    subst same
    have owns' := owns.make_only factory
    refine Interface.wp_release ((owns' factory).mpr rfl) (fun x is => (free x is).elim) rfl rfl
      rfl (fun _ => rfl) ?_
    intro _ _
    exact tried _ owns'.release_only

end CameraCapture

/-! ### Several objects -/

/-- What each object expects: that all works concerns the publisher alone. -/
@[reducible] def expects (found works : Prop) : Obj → (c : Cmd) → sig.Reply c → Prop
  | .publisher => Expects found works
  | .capture | .encoder => Expects found False

/-- The references of all objects and the threads. -/
abbrev Session (found works : Prop) : Logic (Handles.sig sig Obj Thread) :=
  Handles.logic interface (expects found works) Thread

variable {g : State Obj Thread}

/-- A packet callback that keeps `P` of what it captured and of the publisher's references, and
touches no others. -/
def Pushes {σ : Type} (found works : Prop) (P : σ → Heap → Prop) (callback : Callback σ) : Prop :=
  ∀ captured g, P captured (g.heap .publisher) →
    (callback captured).wp (Session found works)
      (fun captured' g' => ∃ h', g' = g.on .publisher h' ∧ P captured' h') g

namespace Encoder

def Holds (e : Encoder) (h : Heap) : Prop := h.Owns {r | e.codecCtx = some r}

theorem Holds.closed {e : Encoder} (holds : e.Holds h) (closed : e.codecCtx = none) :
    h.Owns ∅ := by
  simpa only [Holds, closed, reduceCtorEq, Set.ofPred_false] using holds

theorem Holds.opened {e : Encoder} {codecCtx : Ref} (holds : e.Holds h)
    (opened : e.codecCtx = some codecCtx) : h.Owns {codecCtx} := by
  intro r
  rw [holds r, Set.mem_ofPred_eq, opened, Option.some_inj, Set.mem_singleton_iff, eq_comm]

theorem create_spec :
    create.wp (Refs found works lent) (fun e h' => h' = h ∧ e.codecCtx = none) h := by
  refine Interface.wp_use (by simp) rfl rfl (fun _ => rfl) ?_
  intro hardware _
  exact ⟨rfl, rfl⟩

theorem initializeEncoder_spec {e : Encoder} (closed : e.codecCtx = none) (holds : e.Holds h) :
    e.initializeEncoder.wp (Refs found works lent) (fun r h' => r.1.Holds h') h := by
  simp only [initializeEncoder, call, Prog.issue, Prog.call_bind, Prog.done_bind, Prog.pure_eq]
  refine Interface.wp_use (by simp) rfl rfl (fun _ => rfl) ?_
  intro there _
  split
  · refine Interface.wp_yield (by simp) rfl rfl ?_ ?_
    · intro _ same _
      subst same
      rw [Holds, closed] at holds
      exact holds
    · intro _ codecCtx same _ _
      subst same
      have opened : (h.make codecCtx).Owns {r | some codecCtx = some r} := by
        intro r
        rw [(holds.closed closed).make_only codecCtx r]
        simp [eq_comm]
      refine Interface.wp_use ?_ rfl rfl (fun _ => rfl) ?_
      · simp [Heap.Live, Heap.make]
      · intro fine _
        split
        · exact opened
        · exact opened
  · exact holds

variable {σ : Type} {P : σ → Heap → Prop} {callback : Callback σ} {captured : σ}

theorem deliver_spec (pushes : Pushes found works P callback)
    (kept : P captured (g.heap .publisher)) (left : Nat) :
    (deliver callback left captured).wp (Session found works)
      (fun captured' g' => ∃ h', g' = g.on .publisher h' ∧ P captured' h') g := by
  induction left generalizing captured g with
  | zero => exact ⟨g.heap .publisher, State.on_same.symm, kept⟩
  | succ left ih =>
    rw [deliver, Prog.wp_bind]
    refine Prog.wp_mono (pushes captured g kept) ?_
    intro captured₁ _ holds
    rcases holds with ⟨h₁, rfl, kept₁⟩
    refine Prog.wp_mono (ih ?_) ?_
    · rwa [State.on_heap]
    · intro captured₂ _ holds
      rcases holds with ⟨h₂, rfl, kept₂⟩
      exact ⟨h₂, State.on_on, kept₂⟩

theorem encodeFrames_spec {e : Encoder} (pushes : Pushes found works P callback)
    (kept : P captured (g.heap .publisher)) (holds : e.Holds (g.heap .encoder)) :
    (e.encodeFrames callback captured).wp (Session found works)
      (fun captured' g' => ∃ h', g' = g.on .publisher h' ∧ P captured' h') g := by
  cases opened : e.codecCtx with
  | none =>
    simp only [encodeFrames, opened]
    exact ⟨g.heap .publisher, State.on_same.symm, kept⟩
  | some codecCtx =>
    have own : g.heap .encoder codecCtx = .owned := (holds.opened opened codecCtx).mpr rfl
    simp only [encodeFrames, opened]
    split
    · refine Prog.wp_on_bind (Interface.wp_use ?_ rfl rfl (fun _ => rfl) ?_)
      · simp [Heap.Live, own]
      intro received _
      rw [Prog.wp_done, State.on_same]
      exact deliver_spec pushes kept received
    · exact ⟨g.heap .publisher, State.on_same.symm, kept⟩

theorem stop_spec {e : Encoder} (free : ∀ r, ¬ g.Lent .encoder r)
    (pushes : Pushes found works P callback) (kept : P captured (g.heap .publisher))
    (holds : e.Holds (g.heap .encoder)) :
    (e.stop callback captured).wp (Session found works)
      (fun r g' => ∃ h' h'', g' = (g.on .publisher h').on .encoder h'' ∧ P r.2 h' ∧ h''.Owns ∅ ∧
        r.1.codecCtx = none) g := by
  cases opened : e.codecCtx with
  | none =>
    simp only [stop, opened]
    refine ⟨g.heap .publisher, g.heap .encoder, ?_, kept, holds.closed opened, opened⟩
    rw [State.on_same, State.on_same]
  | some codecCtx =>
    have only := holds.opened opened
    have own : g.heap .encoder codecCtx = .owned := (only codecCtx).mpr rfl
    simp only [stop, opened]
    refine Prog.wp_on_bind (Interface.wp_use ?_ rfl rfl (fun _ => rfl) ?_)
    · simp [Heap.Live, own]
    intro left _
    rw [Prog.wp_done, State.on_same, Prog.wp_bind]
    refine Prog.wp_mono (deliver_spec pushes kept left) ?_
    intro captured' _ post
    rcases post with ⟨h', rfl, kept'⟩
    have same : (g.on .publisher h').heap .encoder = g.heap .encoder :=
      State.on_heap_of_ne (by decide)
    refine Prog.wp_on_bind (Interface.wp_release (same ▸ own) (fun r is => (free r is).elim) rfl
      rfl rfl (fun _ => rfl) ?_)
    intro _ _
    refine ⟨h', _, rfl, kept', ?_, rfl⟩
    rw [same]
    exact only.release_only

theorem destroy_spec {e : Encoder} (free : ∀ r, ¬ g.Lent .encoder r)
    (pushes : Pushes found works P callback) (kept : P captured (g.heap .publisher))
    (holds : e.Holds (g.heap .encoder)) :
    (e.destroy callback captured).wp (Session found works)
      (fun captured' g' => ∃ h' h'', g' = (g.on .publisher h').on .encoder h'' ∧
        P captured' h' ∧ h''.Owns ∅) g := by
  simp only [destroy]
  split
  · rw [Prog.wp_bind]
    refine Prog.wp_mono (stop_spec free pushes kept holds) ?_
    intro post _ facts
    rcases post with ⟨e', captured'⟩
    rcases facts with ⟨h', h'', rfl, kept', nothing, closed⟩
    dsimp only at closed ⊢
    simp only [closed]
    exact ⟨h', h'', rfl, kept', nothing⟩
  · rw [Prog.pure_eq, Prog.done_bind]
    cases opened : e.codecCtx with
    | none =>
      refine ⟨g.heap .publisher, g.heap .encoder, ?_, kept, holds.closed opened⟩
      rw [State.on_same, State.on_same]
    | some codecCtx =>
      have only := holds.opened opened
      refine Prog.wp_on_bind (Interface.wp_release ((only codecCtx).mpr rfl)
        (fun r is => (free r is).elim) rfl rfl rfl (fun _ => rfl) ?_)
      intro _ _
      refine ⟨g.heap .publisher, _, ?_, kept, only.release_only⟩
      rw [State.on_same]

end Encoder

/-! ### The capture device and its thread -/

/-- The encode thread uses nothing of the capture device. -/
def EncodeApart (g : State Obj Thread) : Prop :=
  ∀ l, g.lent .encode = some l → ∀ r ∈ l, r.1 ≠ .capture

/-- The capture thread uses nothing but the capture device. -/
def CaptureApart (g : State Obj Thread) : Prop :=
  ∀ l, g.lent .capture = some l → ∀ r ∈ l, r.1 = .capture

theorem EncodeApart.free (apart : EncodeApart g) (r : Ref) :
    ¬ (g.lend .capture none).Lent .capture r := by
  intro holds
  rcases holds with ⟨t, l, lent, member⟩
  cases t with
  | capture => simp at lent
  | encode =>
    rw [State.lend_lent_of_ne (by decide)] at lent
    exact apart l lent _ member rfl

namespace CameraCapture

variable {c : CameraCapture}

theorem Holds.own {r : Ref} (holds : c.Holds h)
    (member : c.pipeline = some r ∨ c.appsink = some r) : h r = .owned := by
  obtain ⟨pipeline, appsink, joinable⟩ := c
  cases pipeline with
  | none =>
    cases appsink with
    | none => simp at member
    | some appsink => exact holds.elim
  | some pipeline =>
    cases appsink with
    | none => exact holds.elim
    | some appsink =>
      refine (holds.2 r).mpr ?_
      simpa [eq_comm] using member

theorem stop_spec (holds : c.Holds (g.heap .capture)) :
    c.stop.wp (Session found works)
      (fun c' g' => c'.pipeline = c.pipeline ∧ c'.appsink = c.appsink ∧
        g' = g.lend .capture none) g := by
  simp only [stop, runs, join]
  refine ⟨trivial, ?_⟩
  intro running g' ended
  cases running with
  | false => exact ⟨rfl, rfl, ended⟩
  | true =>
    obtain ⟨_, rfl⟩ := ended
    refine ⟨trivial, ?_⟩
    intro _ _ same
    subst same
    cases is : c.pipeline with
    | none => exact ⟨rfl, rfl, rfl⟩
    | some pipeline =>
      refine Prog.wp_on_bind (Interface.wp_use ?_ rfl rfl (fun _ => rfl) ?_)
      · simp [Heap.Live, holds.own (.inl is)]
      intro _ _
      exact ⟨rfl, rfl, State.on_same⟩

/-- What a method of the capture device may change. -/
structure Step (g g' : State Obj Thread) : Prop where
  kept : (g.heap .capture).Keeps (g'.heap .capture)
  others : ∀ o ≠ .capture, g'.heap o = g.heap o
  encode : g'.lent .encode = g.lent .encode
  apart : CaptureApart g'

theorem failed_spec {pipeline : Ref} (own : g.heap .capture pipeline = .owned)
    (free : ∀ r, ¬ g.Lent .capture r) (apart : CaptureApart g) :
    (start.failed c pipeline).wp (Session found works) (fun r g' => r.1 = c ∧ Step g g') g := by
  simp only [start.failed]
  refine Prog.wp_on_bind (Prog.wp_mono (logPipelineError_spec free own) ?_)
  intro _ h' kept
  refine Prog.wp_on_bind (Interface.wp_use ?_ rfl rfl (fun _ => rfl) ?_)
  · have own' := (kept.eq (r := pipeline) (by simp [own])).trans own
    simp [Heap.Live, own']
  intro _ _
  rw [Prog.wp_done, State.on_same]
  refine ⟨rfl, ?_, ?_, rfl, apart⟩
  · rw [State.on_heap]
    exact kept
  · intro o other
    exact State.on_heap_of_ne other

theorem start_spec (holds : c.Holds (g.heap .capture)) (encode : EncodeApart g)
    (capture : CaptureApart g) :
    c.start.wp (Session found works)
      (fun r g' => r.1.pipeline = c.pipeline ∧ r.1.appsink = c.appsink ∧ Step g g') g := by
  cases is : c.pipeline with
  | none =>
    simp only [start, is]
    exact ⟨is, rfl, .refl _, fun _ _ => rfl, rfl, capture⟩
  | some pipeline =>
    have own := holds.own (.inl is)
    simp only [start, is, runs]
    refine ⟨trivial, ?_⟩
    intro running g' ended
    change (if (running || c.joinable) = true then _ else _ : Method _).wp _ _ _
    cases running with
    | true =>
      obtain ⟨_, rfl⟩ := ended
      exact ⟨is, rfl, .refl _, fun _ _ => rfl, rfl, capture⟩
    | false =>
      obtain rfl : g' = g.lend .capture none := ended
      have ended : Step g (g.lend .capture none) := by
        refine ⟨.refl _, fun _ _ => rfl, State.lend_lent_of_ne (by decide), ?_⟩
        intro l lent
        simp at lent
      have fails : (start.failed c pipeline).wp (Session found works)
          (fun r g' => r.1.pipeline = some pipeline ∧ r.1.appsink = c.appsink ∧ Step g g')
          (g.lend .capture none) := by
        refine Prog.wp_mono (failed_spec own encode.free ended.apart) ?_
        intro r g' post
        rcases post with ⟨rfl, step⟩
        exact ⟨is, rfl, ended.kept.trans step.kept,
          fun o other => (step.others o other).trans (ended.others o other),
          step.encode.trans ended.encode, step.apart⟩
      split
      · exact ⟨is, rfl, ended⟩
      · refine Prog.wp_on_bind (Interface.wp_use ?_ rfl rfl (fun _ => rfl) ?_)
        · simp [Heap.Live, own]
        intro ret _
        rw [Prog.wp_done, State.on_same]
        split
        · exact fails
        · refine Prog.wp_on_bind (Interface.wp_use ?_ rfl rfl (fun _ => rfl) ?_)
          · simp [Heap.Live, own]
          intro post _
          rcases post with ⟨ret, state⟩
          rw [Prog.wp_done, State.on_same]
          dsimp only
          split
          · exact fails
          · refine ⟨⟨State.lend_lent, ?_⟩, ?_⟩
            · intro p member
              obtain ⟨r, used, rfl⟩ := List.mem_map.mp member
              refine .inl (holds.own ?_)
              simpa [is, eq_comm] using used
            · intro _ _ same
              subst same
              refine ⟨rfl, rfl, .refl _, fun _ _ => rfl, ?_, ?_⟩
              · rw [State.lend_lent_of_ne (by decide), ended.encode]
              · intro l lent r member
                rw [State.lend_lent, Option.some_inj] at lent
                subst lent
                obtain ⟨_, _, rfl⟩ := List.mem_map.mp member
                rfl

/-- Whatever became of the thread, the destructor releases both references. -/
theorem destroy_spec (holds : c.Holds (g.heap .capture)) (encode : EncodeApart g) :
    c.destroy.wp (Session found works)
      (fun _ g' => ∃ h', g' = (g.lend .capture none).on .capture h' ∧ h'.Owns ∅) g := by
  rw [destroy, Prog.wp_bind]
  refine Prog.wp_mono (stop_spec holds) ?_
  intro c' _ post
  rcases post with ⟨samePipeline, sameSink, rfl⟩
  obtain ⟨pipeline, appsink, joinable⟩ := c
  rw [samePipeline, sameSink]
  cases pipeline with
  | none =>
    cases appsink with
    | none => exact ⟨g.heap .capture, State.on_same.symm, holds⟩
    | some appsink => exact holds.elim
  | some pipeline =>
    cases appsink with
    | none => exact holds.elim
    | some appsink =>
      obtain ⟨other, owns⟩ := holds
      have own : g.heap .capture appsink = .owned := (owns appsink).mpr (.inr rfl)
      have owns' : ((g.heap .capture).release appsink).Owns {pipeline} := by
        have left := owns.release appsink
        rwa [Set.pair_sdiff_right other] at left
      refine Prog.wp_on_bind (Interface.wp_release own (fun r is => (encode.free r is).elim) rfl
        rfl rfl (fun _ => rfl) ?_)
      intro _ _
      have own' := (owns' pipeline).mpr rfl
      refine Prog.wp_on_bind (Interface.wp_use ?_ rfl rfl (fun _ => rfl) ?_)
      · simp [Heap.Live, own']
      intro _ _
      rw [Prog.wp_done, State.on_same]
      refine Prog.wp_on (Interface.wp_release (r := pipeline) ?_
        (fun r is => (encode.free r is).elim) rfl rfl rfl (fun _ => rfl) ?_)
      · rw [State.on_heap]
        exact own'
      intro _ _
      refine ⟨_, State.on_on, ?_⟩
      rw [State.on_heap]
      exact owns'.release_only

end CameraCapture

/-! ### The publisher -/

namespace WHIPPublisher

variable {p : WHIPPublisher}

/-- The publisher has a pipeline, and its `appsrc` is in it. -/
def Ready (p : WHIPPublisher) (h : Heap) : Prop :=
  ∃ pipeline appsrc, p.pipeline = some pipeline ∧ p.appsrc = some appsrc ∧
    h appsrc = .part pipeline

/-- The pipeline is to be released, and where all works nothing else but a buffer for each packet
that was pushed. -/
structure Holds (works : Prop) (p : WHIPPublisher) (h : Heap) : Prop where
  owns : ∃ refs, h.Owns refs ∧ {r | p.pipeline = some r} ⊆ refs ∧
    (works → (refs \ {r | p.pipeline = some r}).encard = p.frameCount)
  ready : p.running = true → p.Ready h

theorem Holds.own {pipeline : Ref} (holds : p.Holds works h) (is : p.pipeline = some pipeline) :
    h pipeline = .owned := by
  obtain ⟨refs, owns, has, _⟩ := holds.owns
  exact (owns pipeline).mpr (has is)

theorem Ready.keeps {h' : Heap} (ready : p.Ready h) (kept : h.Keeps h') : p.Ready h' := by
  obtain ⟨pipeline, appsrc, is, isSource, part⟩ := ready
  refine ⟨pipeline, appsrc, is, isSource, ?_⟩
  rw [kept.eq (by simp [part]), part]

theorem Holds.keeps {h' : Heap} (holds : p.Holds works h) (kept : h.Keeps h') :
    p.Holds works h' := by
  obtain ⟨⟨refs, owns, has⟩, ready⟩ := holds
  exact ⟨⟨refs, kept.owns owns, has⟩, fun runs => (ready runs).keeps kept⟩

theorem logBusError_spec (free : ∀ x, ¬ lent x) (holds : p.Holds works h) :
    p.logBusError.wp (Refs found works lent) (fun _ h' => h.Keeps h') h := by
  rw [logBusError]
  split
  · exact .refl h
  · next pipeline is =>
    refine withRef_spec free (yields_getBus (.inl (holds.own is))) ?_
    intro bus h' live
    exact Interface.wp_use (by simpa using live) rfl rfl (fun _ => rfl) fun _ _ => rfl

/-- The publisher is the same but for the number of packets. -/
structure Counts (p p' : WHIPPublisher) : Prop where
  pipeline : p'.pipeline = p.pipeline
  running : p'.running = p.running

theorem Counts.refl (p : WHIPPublisher) : p.Counts p := ⟨rfl, rfl⟩

theorem Counts.trans {p p' p'' : WHIPPublisher} (first : p.Counts p') (second : p'.Counts p'') :
    p.Counts p'' :=
  ⟨second.pipeline.trans first.pipeline, second.running.trans first.running⟩

/-- A publisher that runs is left with the buffer it pushed. -/
theorem pushPacket_spec (holds : p.Holds works h) :
    p.pushPacket.wp (Refs found works lent) (fun p' h' => p'.Holds works h' ∧ p.Counts p') h := by
  rw [pushPacket]
  split
  · next runs =>
    obtain ⟨pipeline, appsrc, is, isSource, part⟩ := holds.ready runs
    obtain ⟨refs, owns, has, count⟩ := holds.owns
    simp only [isSource, call, Prog.issue, Prog.call_bind, Prog.done_bind, Prog.pure_eq]
    refine Interface.wp_yield (by simp) rfl rfl (fun _ none => by cases none) ?_
    intro reply buffer yielded _ fresh
    obtain rfl : reply = buffer := Option.some_inj.mp yielded
    have new : reply ∉ refs := owns.notMem fresh.1
    have part' : h.make reply appsrc = .part pipeline := by
      rw [Heap.make_eq fresh (by simp [part]), part]
    have own : h.make reply reply = .owned := Function.update_self ..
    refine Interface.wp_use (by simp [Heap.Live, part', own]) rfl rfl (fun _ => rfl) ?_
    intro _ _
    refine ⟨⟨⟨insert reply refs, owns.make reply, ?_, fun does => ?_⟩,
      fun _ => ⟨pipeline, appsrc, is, rfl, part'⟩⟩, ⟨rfl, rfl⟩⟩
    · exact has.trans (Set.subset_insert reply refs)
    · have apart : reply ∉ refs \ {r | p.pipeline = some r} := fun member => new member.1
      rw [Set.insert_sdiff_of_notMem _ fun same => new (has same),
        Set.encard_insert_of_notMem apart, count does]
      rfl
  · exact ⟨holds, .refl p⟩

/-- What `start` promises: it succeeds where all works. -/
structure Started (works : Prop) (p : WHIPPublisher) (r : WHIPPublisher × Result) (h : Heap) :
    Prop where
  holds : r.1.Holds works h
  pipeline : r.1.pipeline = p.pipeline
  runs : r.1.running = true ↔ r.2 = .success
  success : works → r.2 = .success

theorem start_spec (free : ∀ x, ¬ lent x) (holds : p.Holds works h) (ready : p.Ready h)
    (rests : p.running = false) :
    p.start.wp (Refs found works lent) (p.Started works) h := by
  obtain ⟨pipeline, appsrc, is, isSource, part⟩ := ready
  have live : ∀ {h' : Heap}, p.Holds works h' → ∀ r ∈ [pipeline], h'.Live r := by
    intro h' holds'
    simp [Heap.Live, holds'.own is]
  have fine : p.Started works ({ p with running := true }, .success) h :=
    ⟨⟨holds.owns, fun _ => ⟨pipeline, appsrc, is, isSource, part⟩⟩, rfl, by simp, fun _ => rfl⟩
  have broken : ∀ {h' : Heap}, ¬ works → p.Holds works h' →
      p.Started works (p, .errorPipelineFailed) h' := by
    intro h' fails holds'
    exact ⟨holds', rfl, by simp [rests], fun does => (fails does).elim⟩
  simp only [start, is, rests, call, Prog.issue, Prog.call_bind, Prog.done_bind, Prog.pure_eq]
  rw [← is]
  refine Interface.wp_use (live holds) rfl rfl (fun _ => rfl) ?_
  intro ret expected
  cases ret with
  | failure =>
    have fails : ¬ works := fun does => expected does rfl
    dsimp only
    rw [Prog.wp_bind]
    refine Prog.wp_mono (logBusError_spec free holds) ?_
    intro _ h' kept
    exact broken fails (holds.keeps kept)
  | async =>
    refine Interface.wp_use (live holds) rfl rfl (fun _ => rfl) ?_
    intro post expected'
    rcases post with ⟨waited, state⟩
    cases waited with
    | failure =>
      have fails : ¬ works := fun does => (expected' does).1 rfl
      dsimp only
      rw [Prog.wp_bind]
      refine Prog.wp_mono (logBusError_spec free holds) ?_
      intro _ h' kept
      refine Interface.wp_use (live (holds.keeps kept)) rfl rfl (fun _ => rfl) ?_
      intro _ _
      exact broken fails (holds.keeps kept)
    | async =>
      have fails : ¬ works := fun does => (expected' does).2 rfl
      refine Interface.wp_use (live holds) rfl rfl (fun _ => rfl) ?_
      intro _ _
      exact broken fails holds
    | success | noPreroll => exact fine
  | success | noPreroll => exact fine

/-- Without its pipeline a publisher holds what is left. -/
theorem Holds.released {pipeline : Ref} (holds : p.Holds works h)
    (is : p.pipeline = some pipeline) {p' : WHIPPublisher} (none : p'.pipeline = none)
    (rests : p'.running = false) (same : p'.frameCount = p.frameCount) :
    p'.Holds works (h.release pipeline) := by
  obtain ⟨refs, owns, _, count⟩ := holds.owns
  refine ⟨⟨refs \ {pipeline}, owns.release pipeline, by simp [none], ?_⟩, by simp [rests]⟩
  intro does
  rw [same, ← count does, is, none]
  simp

theorem stop_spec (free : ∀ x, ¬ lent x) (holds : p.Holds works h) (runs : p.running = true) :
    p.stop.wp (Refs found works lent)
      (fun p' h' => p' = { p with pipeline := none, appsrc := none, running := false } ∧
        p'.Holds works h') h := by
  obtain ⟨pipeline, appsrc, is, isSource, part⟩ := holds.ready runs
  simp only [stop, is, isSource, runs, if_true, call, Prog.issue, Prog.call_bind, Prog.done_bind,
    Prog.pure_eq]
  refine Interface.wp_use (by simp [Heap.Live, part]) rfl rfl (fun _ => rfl) ?_
  intro _ _
  rw [Prog.wp_bind]
  refine Prog.wp_mono (withRef_spec free (yields_getBus (.inl (holds.own is))) ?_) ?_
  · intro bus h' live
    exact Interface.wp_use (by simpa using live) rfl rfl (fun _ => rfl) fun _ _ => rfl
  intro _ h₁ kept₁
  have holds₁ := holds.keeps kept₁
  rw [Prog.wp_bind]
  refine Prog.wp_mono (withRef_spec free (yields_getBus (.inl (holds₁.own is))) ?_) ?_
  · intro bus h' live
    exact Interface.wp_use (by simpa using live) rfl rfl (fun _ => rfl) fun _ _ => rfl
  intro _ h₂ kept₂
  have holds₂ := holds₁.keeps kept₂
  have own := holds₂.own is
  refine Interface.wp_use (by simp [Heap.Live, own]) rfl rfl (fun _ => rfl) ?_
  intro _ _
  refine Interface.wp_release own (fun x is => (free x is).elim) rfl rfl rfl (fun _ => rfl) ?_
  intro _ _
  exact ⟨rfl, holds₂.released is rfl rfl rfl⟩

/-- Without a pipeline there are the buffers only. -/
theorem Holds.buffers (holds : p.Holds works h) (none : p.pipeline = none) (does : works) :
    ∃ buffers : Set Ref, h.Owns buffers ∧ buffers.encard = p.frameCount := by
  obtain ⟨refs, owns, _, count⟩ := holds.owns
  exact ⟨refs, owns, by simpa [none] using count does⟩

/-- A destroyed publisher pushes no more, and leaves the buffers it pushed where all works. -/
theorem destroy_spec (free : ∀ x, ¬ lent x) (holds : p.Holds works h) :
    p.destroy.wp (Refs found works lent)
      (fun p' h' => p'.running = false ∧
        (works → ∃ buffers, h'.Owns buffers ∧ buffers.encard = p.frameCount)) h := by
  rw [destroy]
  split
  · next runs =>
    rw [Prog.wp_bind]
    refine Prog.wp_mono (stop_spec free holds runs) ?_
    intro _ h' post
    rcases post with ⟨rfl, holds'⟩
    exact ⟨rfl, holds'.buffers rfl⟩
  · next rests =>
    rw [Bool.not_eq_true] at rests
    rw [Prog.pure_eq, Prog.done_bind]
    dsimp only
    split
    · next pipeline is =>
      refine Interface.wp_release (holds.own is) (fun x is => (free x is).elim) rfl rfl rfl
        (fun _ => rfl) ?_
      intro _ _
      have left : Holds works { p with pipeline := none } (h.release pipeline) :=
        holds.released is rfl rests rfl
      exact ⟨rests, left.buffers rfl⟩
    · next none => exact ⟨rests, holds.buffers none⟩

/-- What `initialize` promises: after a success the publisher is ready, after a failure no pipeline
is left where all works. -/
structure Made (works : Prop) (r : WHIPPublisher × Result) (h : Heap) : Prop where
  holds : r.1.Holds works h
  rests : r.1.running = false
  ready : r.2 = .success → r.1.Ready h
  cleared : works → r.2 ≠ .success → r.1.pipeline = none

theorem discard_spec {pipeline : Ref} (free : ∀ x, ¬ lent x) (holds : p.Holds works h)
    (rests : p.running = false) (is : p.pipeline = some pipeline) :
    (p.discard pipeline).wp (Refs found works lent) (Made works) h := by
  have own := holds.own is
  simp only [discard, call, Prog.issue, Prog.call_bind, Prog.done_bind, Prog.pure_eq]
  refine Interface.wp_use (by simp [Heap.Live, own]) rfl rfl (fun _ => rfl) ?_
  intro _ _
  refine Interface.wp_release own (fun x is => (free x is).elim) rfl rfl rfl (fun _ => rfl) ?_
  intro _ _
  exact ⟨holds.released is rfl rests rfl, rests, nofun, fun _ _ => rfl⟩

theorem watch_spec {pipeline appsrc : Ref} (free : ∀ x, ¬ lent x) (holds : p.Holds works h)
    (rests : p.running = false) (is : p.pipeline = some pipeline)
    (isSource : p.appsrc = some appsrc) (part : h appsrc = .part pipeline) :
    (p.watch pipeline appsrc).wp (Refs found works lent) (Made works) h := by
  have ready : p.Ready h := ⟨pipeline, appsrc, is, isSource, part⟩
  rw [watch, Prog.wp_bind]
  refine Prog.wp_mono (withRef_spec free (yields_getBus (.inl (holds.own is))) ?_) ?_
  · intro bus h' live
    exact Interface.wp_use (by simpa using live) rfl rfl (fun _ => rfl) fun _ _ => rfl
  intro _ h₁ kept₁
  have part₁ := (kept₁.eq (r := appsrc) (by simp [part])).trans part
  rw [Prog.wp_bind]
  refine Prog.wp_mono (withRef_spec free (yields_getStaticPad (.inr ⟨pipeline, part₁⟩) _) ?_) ?_
  · intro pad h' live
    exact Interface.wp_use (by simpa using live) rfl rfl (fun _ => rfl) fun _ _ => rfl
  intro _ h₂ kept₂
  have kept := kept₁.trans kept₂
  exact ⟨holds.keeps kept, rests, fun _ => ready.keeps kept,
    fun _ failed => (failed rfl).elim⟩

theorem connect_spec {pipeline appsrc h264parse rtph264pay whipsink : Ref}
    (free : ∀ x, ¬ lent x) (holds : p.Holds works h) (rests : p.running = false)
    (is : p.pipeline = some pipeline) (isSource : p.appsrc = some appsrc)
    (parts : ∀ r ∈ [appsrc, h264parse, rtph264pay, whipsink], h r = .part pipeline) :
    (p.connect pipeline appsrc h264parse rtph264pay whipsink).wp
      (Refs found works lent) (Made works) h := by
  have live : ∀ r ∈ [appsrc, h264parse, rtph264pay, whipsink], h.Live r :=
    fun r member => .inr ⟨pipeline, parts r member⟩
  have discards : ∀ {h' : Heap}, h.Keeps h' →
      (p.discard pipeline).wp (Refs found works lent) (Made works) h' :=
    fun kept => discard_spec free (holds.keeps kept) rests is
  simp only [connect, call, Prog.issue, Prog.call_bind, Prog.done_bind]
  refine Interface.wp_use ?_ rfl rfl (fun _ => rfl) ?_
  · intro r member
    exact live r (List.mem_append_left [whipsink] member)
  intro linked _
  split
  · refine Interface.wp_yield (by simpa using live whipsink (by simp)) rfl rfl ?_ ?_
    · intro _ same _
      subst same
      exact discards (.refl h)
    intro _ whipSinkPad same _ fresh
    subst same
    have payPart : h.make whipSinkPad rtph264pay = .part pipeline := by
      rw [Heap.make_eq fresh (by simp [parts]), parts rtph264pay (by simp)]
    have own : h.make whipSinkPad whipSinkPad = .owned := Function.update_self ..
    refine Interface.wp_yield (by simp [Heap.Live, payPart]) rfl rfl ?_ ?_
    · intro _ same _
      subst same
      refine Interface.wp_release own (fun x is => (free x is).elim) rfl rfl rfl (fun _ => rfl) ?_
      intro _ _
      exact discards (.release fresh (.refl _))
    intro _ paySrcPad same _ fresh'
    subst same
    have own' : (h.make whipSinkPad).make paySrcPad paySrcPad = .owned := Function.update_self ..
    have inner := Heap.Keeps.release fresh' (.refl _)
    have outer := Heap.Keeps.release fresh inner
    refine Interface.wp_use ?_ rfl rfl (fun _ => rfl) ?_
    · have sink : (h.make whipSinkPad).make paySrcPad whipSinkPad = .owned := by
        rw [Heap.make_eq fresh' (by simp [own]), own]
      simp [Heap.Live, own', sink]
    intro fine _
    refine Interface.wp_release own' (fun x is => (free x is).elim) rfl rfl rfl (fun _ => rfl) ?_
    intro _ _
    refine Interface.wp_release ?_ (fun x is => (free x is).elim) rfl rfl rfl (fun _ => rfl) ?_
    · rw [inner.eq (by simp [own]), own]
    intro _ _
    split
    · refine watch_spec free (holds.keeps outer) rests is isSource ?_
      rw [outer.eq (by simp [parts]), parts appsrc (by simp)]
    · exact discards outer
  · exact discards (.refl h)

theorem link_spec {pipeline appsrc h264parse rtph264pay whipsink : Ref} {refs : Set Ref}
    (free : ∀ x, ¬ lent x) (rests : p.running = false) (is : p.pipeline = some pipeline)
    (isSource : p.appsrc = some appsrc) (owns : h.Owns refs) (whole : pipeline ∈ refs)
    (parts : ∀ r ∈ [appsrc, h264parse, rtph264pay, whipsink], r ∈ refs ∧ r ≠ pipeline)
    (count : works → (refs \ insert pipeline
      {r | r ∈ [appsrc, h264parse, rtph264pay, whipsink]}).encard = p.frameCount)
    (whipUrl streamKey : String) :
    (p.link pipeline appsrc h264parse rtph264pay whipsink whipUrl streamKey).wp
      (Refs found works lent) (Made works) h := by
  have live : ∀ r ∈ [appsrc, h264parse, rtph264pay, whipsink], h.Live r :=
    fun r member => .inl ((owns r).mpr (parts r member).1)
  simp only [link, call, Prog.issue, Prog.call_bind, Prog.done_bind]
  refine Interface.wp_use (by simpa using live appsrc (by simp)) rfl rfl (fun _ => rfl) ?_
  intro _ _
  refine Interface.wp_use (by simpa using live rtph264pay (by simp)) rfl rfl (fun _ => rfl) ?_
  intro _ _
  refine Interface.wp_use (by simpa using live whipsink (by simp)) rfl rfl (fun _ => rfl) ?_
  intro _ _
  refine Interface.wp_give rfl rfl rfl (fun _ => rfl) ((owns pipeline).mpr whole) ?_ ?_
  · intro r member
    exact ⟨(owns r).mpr (parts r member).1, (parts r member).2⟩
  intro _ _
  refine connect_spec free ⟨⟨_, owns.give_all _ pipeline, ?_, ?_⟩, by simp [rests]⟩ rests is
    isSource fun r member => if_pos member
  · intro r same
    obtain rfl : pipeline = r := Option.some_inj.mp (is.symm.trans same)
    exact ⟨whole, fun member => (parts pipeline member).2 rfl⟩
  · intro does
    rw [← count does, is, Set.insert_eq, Set.union_comm, ← Set.sdiff_sdiff]
    simp [eq_comm]

theorem wp_elementFactoryMake {α : Type} {factory name : String} {k : Option Ref → Calls α}
    {Q : α → Heap → Prop} {refs : Set Ref} (owns : h.Owns refs)
    (rest : ∀ r h', h'.Owns (refs ∪ {x | r = some x}) → (∀ x, r = some x → x ∉ refs) →
      (works → r.isSome = true) → (k r).wp (Refs found works lent) Q h') :
    (Prog.call (S := sig) (Cmd.elementFactoryMake factory name) k).wp (Refs found works lent)
      Q h := by
  refine Interface.wp_yield (by simp) rfl rfl ?_ ?_
  · intro _ agrees expected
    subst agrees
    exact rest none h (by simpa using owns) (by simp) expected
  · intro _ element agrees expected fresh
    subst agrees
    refine rest (some element) _ ?_ ?_ expected
    · intro r
      rw [owns.make element r]
      simp [eq_comm]
    · intro x same
      obtain rfl : element = x := Option.some_inj.mp same
      exact owns.notMem fresh.1

theorem initializePublisher_spec (free : ∀ x, ¬ lent x) (holds : p.Holds works h)
    (rests : p.running = false) (gone : works → p.pipeline = none) (whipUrl streamKey : String) :
    (p.initializePublisher whipUrl streamKey).wp (Refs found works lent) (Made works) h := by
  obtain ⟨refs, owns, _, count⟩ := holds.owns
  have pushed : works → refs.encard = p.frameCount := by
    intro does
    simpa [gone does] using count does
  simp only [initializePublisher, call, Prog.issue, Prog.call_bind, Prog.done_bind, Prog.pure_eq]
  refine Interface.wp_yield (by simp) rfl rfl ?_ ?_
  · intro _ same _
    subst same
    refine ⟨⟨⟨refs, owns, by simp, ?_⟩, by simp [rests]⟩, rests, nofun, fun _ _ => rfl⟩
    intro does
    simp [pushed does]
  intro _ pipeline same _ fresh
  subst same
  have new := owns.notMem fresh.1
  refine wp_elementFactoryMake (owns.make pipeline) ?_
  intro appsrc _ owns₁ new₁ some₁
  refine wp_elementFactoryMake owns₁ ?_
  intro h264parse _ owns₂ new₂ some₂
  refine wp_elementFactoryMake owns₂ ?_
  intro rtph264pay _ owns₃ new₃ some₃
  refine wp_elementFactoryMake owns₃ ?_
  intro whipsink _ owns₄ new₄ some₄
  split
  · next appsrc h264parse rtph264pay whipsink =>
    have other₁ := new₁ appsrc rfl
    have other₂ := new₂ h264parse rfl
    have other₃ := new₃ rtph264pay rfl
    have other₄ := new₄ whipsink rfl
    simp only [Set.mem_union, Set.mem_insert_iff, not_or] at other₁ other₂ other₃ other₄
    refine link_spec (p := ⟨some pipeline, some appsrc, p.running, p.frameCount⟩) free rests rfl rfl
      owns₄ (by simp) ?_ ?_ whipUrl streamKey
    · simp [other₁.1, other₂.1.1, other₃.1.1.1, other₄.1.1.1.1]
    · intro does
      have apart : ∀ r ∈ [pipeline, appsrc, h264parse, rtph264pay, whipsink], r ∉ refs := by
        simp [new, other₁, other₂, other₃, other₄]
      rw [← pushed does]
      congr 1
      ext r
      clear * - apart
      simp only [Set.mem_sdiff, Set.mem_union, Set.mem_insert_iff, Set.mem_ofPred_eq]
      constructor
      · intro post
        rcases post with ⟨member, other⟩
        grind
      · intro member
        grind
  · next missing =>
    have fails : ¬ works := by
      intro does
      obtain ⟨a, rfl⟩ := Option.isSome_iff_exists.mp (some₁ does)
      obtain ⟨b, rfl⟩ := Option.isSome_iff_exists.mp (some₂ does)
      obtain ⟨c, rfl⟩ := Option.isSome_iff_exists.mp (some₃ does)
      obtain ⟨d, rfl⟩ := Option.isSome_iff_exists.mp (some₄ does)
      exact missing a b c d rfl rfl rfl rfl
    refine ⟨⟨⟨_, owns₄, ?_, fun does => (fails does).elim⟩, by simp [rests]⟩, rests, nofun,
      fun does => (fails does).elim⟩
    simp

end WHIPPublisher

end Native

end DirectLink
