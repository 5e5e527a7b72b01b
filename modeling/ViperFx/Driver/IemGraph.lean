/-
A live IEM graph against one that is built anew: `src/IemGraph.cpp`, over the engine and its pipeline.

The list of the fields a graph is built for is written out three times: in the test for a rebuild, in the graph, which keeps
them as they are, and in the pipeline, which copies all the others one by one. `ApplyParams` on a graph that the test lets live
leaves what a graph built for the new parameters would have.

Results:
  · hasStructuralDifference_iff, pipeline_applyParams : the three lists are one
  · live_update_rebuild  : a live update is a rebuild, and the test stays right over any updates
-/
import ViperFx.Driver.GraphSlots
import ViperFx.Iem.IemEngine

namespace ViperFx.Iem.Record

open ViperFx.Driver (IemGraphConfig iemGraphPrepares)

variable {F : Type}

/-- `transition_` is prepared for every rate that is supported -/
structure IemGraph (F : Type) where
  config : IemGraphConfig
  engine : IemEngine F
  resourceGeneration : UInt64 := 0

namespace IemGraph

def engineConfig (config : IemGraphConfig) : IemEngineConfig :=
  { hostSampleRate := config.sampleRate.toNat, maxHostBlockFrames := config.maxFrames }

/-- a graph that could not be prepared is none -/
def prepare (parts : Parts F) (config : IemGraphConfig) (params : IemParams F) : Option (IemGraph F) :=
  if iemGraphPrepares config then
    (IemEngine.prepare parts (engineConfig config) params).map fun engine => { config, engine }
  else none

def applyParams (g : IemGraph F) (params : IemParams F) : IemGraph F :=
  let structural := g.engine.params
  let dynamic := { params with
    order := structural.order
    encoderMode := structural.encoderMode
    renderMode := structural.renderMode
    latencyProfile := structural.latencyProfile
    decoder.headphoneEq := structural.decoder.headphoneEq }
  { g with engine := g.engine.applyParams dynamic }

end IemGraph

/-! ## The three lists -/

/-- the fields a graph is built for -/
structure SameStructure (p q : IemParams F) : Prop where
  order : p.order = q.order
  encoderMode : p.encoderMode = q.encoderMode
  renderMode : p.renderMode = q.renderMode
  latencyProfile : p.latencyProfile = q.latencyProfile
  headphoneEq : p.decoder.headphoneEq = q.decoder.headphoneEq

theorem SameStructure.refl (p : IemParams F) : SameStructure p p := ⟨rfl, rfl, rfl, rfl, rfl⟩

theorem SameStructure.symm {p q : IemParams F} (h : SameStructure p q) : SameStructure q p :=
  ⟨h.order.symm, h.encoderMode.symm, h.renderMode.symm, h.latencyProfile.symm, h.headphoneEq.symm⟩

theorem SameStructure.trans {p q r : IemParams F} (h : SameStructure p q) (h' : SameStructure q r) : SameStructure p r :=
  ⟨h.order.trans h'.order, h.encoderMode.trans h'.encoderMode, h.renderMode.trans h'.renderMode,
    h.latencyProfile.trans h'.latencyProfile, h.headphoneEq.trans h'.headphoneEq⟩

/-- the list of the test -/
theorem hasStructuralDifference_iff (p q : IemParams F) : hasStructuralDifference p q = false ↔ SameStructure p q := by
  unfold hasStructuralDifference
  simp only [Bool.or_eq_false_iff, decide_eq_false_iff_not, not_not]
  constructor
  · rintro ⟨⟨⟨⟨hencoder, hrender⟩, horder⟩, heq⟩, hlatency⟩
    exact ⟨horder, hencoder, hrender, hlatency, heq⟩
  · intro h
    exact ⟨⟨⟨⟨h.encoderMode, h.renderMode⟩, h.order⟩, h.headphoneEq⟩, h.latencyProfile⟩

/-- the dynamic fields of `params`, the structural ones of `base` -/
def pinned (base params : IemParams F) : IemParams F :=
  { params with
    order := base.order
    encoderMode := base.encoderMode
    renderMode := base.renderMode
    latencyProfile := base.latencyProfile
    decoder.headphoneEq := base.decoder.headphoneEq }

theorem pinned_structure (base params : IemParams F) : SameStructure (pinned base params) base := ⟨rfl, rfl, rfl, rfl, rfl⟩

theorem pinned_eq {base params : IemParams F} (h : SameStructure base params) : pinned base params = params := by
  unfold pinned
  rw [h.order, h.encoderMode, h.renderMode, h.latencyProfile, h.headphoneEq]

/-- the list of the pipeline: what is not copied is what is pinned -/
theorem pipeline_applyParams (pipeline : IemPipeline F) (params : IemParams F) :
    (pipeline.applyParams params).params = pinned pipeline.params params := rfl

/-! ## Graphs -/

/-- the parameters of a graph, in the engine and in its pipeline -/
structure Runs (g : IemGraph F) (params : IemParams F) : Prop where
  engine : g.engine.params = params
  pipeline : g.engine.pipeline.params = params

theorem engine_applyParams (e : IemEngine F) (params : IemParams F) :
    (e.applyParams params).params = params ∧ (e.applyParams params).pipeline = e.pipeline.applyParams params := by
  unfold IemEngine.applyParams
  dsimp only
  split_ifs <;> exact ⟨rfl, rfl⟩

/-- an update keeps the structure of what runs and takes everything else -/
theorem Runs.applyParams {g : IemGraph F} {base : IemParams F} (h : Runs g base) (params : IemParams F) :
    Runs (g.applyParams params) (pinned base params) := by
  have hengine : (g.applyParams params).engine = g.engine.applyParams (pinned base params) := by
    rw [← h.engine]
    rfl
  obtain ⟨hparams, hpipeline⟩ := engine_applyParams g.engine (pinned base params)
  refine ⟨by rw [hengine, hparams], ?_⟩
  rw [hengine, hpipeline, pipeline_applyParams, h.pipeline]
  exact pinned_eq (pinned_structure base params).symm

theorem prepared_engine {parts : Parts F} {config : IemEngineConfig} {params : IemParams F} {engine : IemEngine F}
    (h : IemEngine.prepare parts config params = some engine) : engine.params = params ∧ engine.pipeline.params = params := by
  obtain ⟨pipeline, hpipeline, rfl⟩ := IemEngine.prepare_eq h
  refine ⟨rfl, ?_⟩
  unfold IemPipeline.prepare at hpipeline
  split_ifs at hpipeline with horder
  cases hlatency : parts.pipeline params config.internalBlockFrames with
  | none =>
    rw [hlatency] at hpipeline
    exact nomatch hpipeline
  | some latency =>
    rw [hlatency] at hpipeline
    obtain rfl := Option.some.inj hpipeline
    rfl

/-- a graph runs the parameters it was prepared with -/
theorem prepared_runs {parts : Parts F} {config : IemGraphConfig} {params : IemParams F} {g : IemGraph F}
    (h : IemGraph.prepare parts config params = some g) : Runs g params := by
  unfold IemGraph.prepare at h
  split_ifs at h with hconfig
  obtain ⟨engine, hengine, rfl⟩ := Option.map_eq_some_iff.mp h
  obtain ⟨hparams, hpipeline⟩ := prepared_engine hengine
  exact ⟨hparams, hpipeline⟩

/-- over any updates a graph runs parameters of the structure it was prepared with -/
theorem updates_run {parts : Parts F} {config : IemGraphConfig} {params : IemParams F} {g : IemGraph F}
    (h : IemGraph.prepare parts config params = some g) (updates : List (IemParams F)) :
    ∃ base, Runs (updates.foldl IemGraph.applyParams g) base ∧ SameStructure base params := by
  induction updates using List.reverseRecOn with
  | nil => exact ⟨params, prepared_runs h, .refl params⟩
  | append_singleton updates update ih =>
    obtain ⟨base, hruns, hsame⟩ := ih
    rw [List.foldl_append]
    exact ⟨pinned base update, hruns.applyParams update, (pinned_structure base update).trans hsame⟩

/-- **A live update is a rebuild.** A graph prepared with `p` and updated to a `q` without structural difference runs `q` in every
field. Over any updates a graph keeps the structure of `p`; the test against its parameters gives what it gives against `p`, and
it lets a graph live exactly when an update makes it run what was asked for. -/
theorem live_update_rebuild {parts : Parts F} {config : IemGraphConfig} {p : IemParams F} {g : IemGraph F}
    (hprepared : IemGraph.prepare parts config p = some g) :
    (∀ q, hasStructuralDifference p q = false → Runs (g.applyParams q) q) ∧
    ∀ (updates : List (IemParams F)) (r : IemParams F),
      SameStructure (updates.foldl IemGraph.applyParams g).engine.params p ∧
      SameStructure (updates.foldl IemGraph.applyParams g).engine.pipeline.params p ∧
      hasStructuralDifference (updates.foldl IemGraph.applyParams g).engine.params r = hasStructuralDifference p r ∧
      (hasStructuralDifference (updates.foldl IemGraph.applyParams g).engine.params r = false ↔
        Runs ((updates.foldl IemGraph.applyParams g).applyParams r) r) := by
  constructor
  · intro q hsame
    have hupdated := (prepared_runs hprepared).applyParams q
    rwa [pinned_eq ((hasStructuralDifference_iff p q).mp hsame)] at hupdated
  · intro updates r
    obtain ⟨base, hruns, hsame⟩ := updates_run hprepared updates
    rw [hruns.engine, hruns.pipeline]
    refine ⟨hsame, hsame, ?_, ?_⟩
    · rw [Bool.eq_iff_iff, ← not_iff_not, Bool.not_eq_true, Bool.not_eq_true, hasStructuralDifference_iff,
        hasStructuralDifference_iff]
      exact ⟨hsame.symm.trans, hsame.trans⟩
    · rw [hasStructuralDifference_iff]
      have hupdated := hruns.applyParams r
      constructor
      · intro hstructure
        rwa [pinned_eq hstructure] at hupdated
      · intro hasked
        have heq : r = pinned base r := hasked.engine.symm.trans hupdated.engine
        rw [heq]
        exact (pinned_structure base r).symm

/-- a graph at 48 kHz that is enabled; a lower order is kept out of it -/
theorem live_update_rebuild_enabled :
    ∃ g, IemGraph.prepare unitParts { sampleRate := 48000, maxFrames := 512, generation := 1 } (withEnable false) = some g ∧
      Runs (g.applyParams (withEnable true)) (withEnable true) ∧
      ([{ withEnable true with order := 1 }].foldl IemGraph.applyParams g).engine.params.order = 3 := by
  obtain ⟨g, hprepared⟩ : ∃ g, IemGraph.prepare unitParts { sampleRate := 48000, maxFrames := 512, generation := 1 }
      (withEnable false) = some g := ⟨_, rfl⟩
  obtain ⟨hlive, hkept⟩ := live_update_rebuild hprepared
  exact ⟨g, hprepared, hlive (withEnable true) rfl, (hkept [{ withEnable true with order := 1 }] (withEnable true)).1.order⟩

end ViperFx.Iem.Record
