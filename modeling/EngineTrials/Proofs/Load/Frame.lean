import EngineTrials.Proofs.Load.Faults
import EngineTrials.Proofs.Load.Tracking

/-! What loading one file leaves alone. A call that finds the set of pending files to be that of the
chain leaves both as they were; it adds segments at the end, the last one for the file itself, and
their files to those included. Every call that it makes on the way finds the set and the chain
agreeing again, and the chain still a way along load directives. -/

namespace EngineTrials

open Relation

/-- `q` is `p` with further segments, and with their files among those included. -/
structure Progress.Adds (fs : FileSystem) (p q : Progress) (added : List Segment) : Prop where
  segments : q.segments = p.segments ++ added
  included_iff : ∀ key, key ∈ q.included ↔
    key ∈ p.included ∨ ∃ s ∈ added, fs.locate s.path = .ok key
  texts : ∀ s ∈ added, ∃ key, fs.locate s.path = .ok key ∧ fs.textAt key = .ok s.source

namespace Progress.Adds

variable {fs : FileSystem} {p q r : Progress} {first second : List Segment}

theorem refl (fs : FileSystem) (p : Progress) : Adds fs p p [] :=
  ⟨(List.append_nil _).symm, by simp, by simp⟩

theorem trans (h1 : Adds fs p q first) (h2 : Adds fs q r second) :
    Adds fs p r (first ++ second) where
  segments := by rw [h2.segments, h1.segments, List.append_assoc]
  included_iff key := by
    rw [h2.included_iff, h1.included_iff, or_assoc]
    simp only [List.mem_append, or_and_right, exists_or]
  texts := List.forall_mem_append.2 ⟨h1.texts, h2.texts⟩

theorem emit {path : Path} {key : Location} {source : String} (hkey : fs.locate path = .ok key)
    (hsource : fs.textAt key = .ok source) :
    Adds fs p (p.emit key ⟨path, source⟩) [⟨path, source⟩] where
  segments := rfl
  included_iff other := by
    have hlast : (∃ s ∈ [(⟨path, source⟩ : Segment)], fs.locate s.path = .ok other) ↔
        other = key := by
      simp [hkey, eq_comm]
    exact List.mem_cons.trans (or_comm.trans (or_congr_right hlast.symm))
  texts := List.forall_mem_singleton.2 ⟨key, hkey, hsource⟩

end Progress.Adds

/-- A call that loads one file from a state. -/
structure LoadCall where
  path : Path
  key : Location
  source : String
  state : LoadState

namespace LoadCall

def run (loader : Loader) (fs : FileSystem) (call : LoadCall) :
    ExceptT LoadFault Option LoadState :=
  loader.trackedVisit fs call.path call.key call.source call.state

/-- The call is for a file that is not being loaded, and the files that are make up a way along load
directives that leads to it. -/
structure Sound (loader : Loader) (fs : FileSystem) (call : LoadCall) : Prop where
  pending_iff : ∀ key, key ∈ call.state.pending ↔ key ∈ call.state.chain
  nodup : call.state.chain.Nodup
  locate : fs.locate call.path = .ok call.key
  textAt : fs.textAt call.key = .ok call.source
  not_pending : call.key ∉ call.state.pending
  linked : (call.state.chain ++ [call.key]).IsChain (loader.Loads fs)

/-- One call makes another one: the directives before the one that asks for the file have been
followed, and the file is neither pending nor included. -/
structure Makes (loader : Loader) (fs : FileSystem) (outer inner : LoadCall) : Prop where
  asks : ∃ before directive after, loadDirectives outer.source = before ++ directive :: after ∧
    inner.path = loader.resolve directive.path ∧
      loader.trackedVisitAll fs outer.path before (outer.state.push outer.key) =
        ended (.ok inner.state)
  isFile : fs.isFile inner.path = true
  locate : Loader.locate fs inner.path = .ok inner.key
  not_pending : inner.key ∉ inner.state.pending
  not_included : inner.key ∉ inner.state.included
  read : Loader.readAt fs inner.path inner.key = .ok inner.source

/-- What a call leaves: the pending files and the chain are as they were, and there are segments
added at the end, with their files among those included. -/
structure Leaves (fs : FileSystem) (call : LoadCall) (after : LoadState) (added : List Segment) :
    Prop where
  pending : after.pending = call.state.pending
  chain : after.chain = call.state.chain
  segments : after.segments = call.state.segments ++ added
  last : added.getLast? = some ⟨call.path, call.source⟩
  texts : ∀ s ∈ added, ∃ key ∈ after.included,
    fs.locate s.path = .ok key ∧ fs.textAt key = .ok s.source
  included_iff : ∀ key, key ∈ after.included ↔
    key ∈ call.state.included ∨ ∃ s ∈ added, fs.locate s.path = .ok key

end LoadCall

namespace LoadState

variable {state : LoadState}

theorem eq_of (h : ∀ key, key ∈ state.pending ↔ key ∈ state.chain) {p : Progress}
    (hincluded : p.included.toFinset = state.included) (hsegments : p.segments = state.segments) :
    state = of state.chain p := by
  have hpending : state.pending = state.chain.toFinset := by
    ext key
    rw [h, List.mem_toFinset]
  rw [of, ← hpending, hincluded, hsegments]

/-- A state whose set of pending files is that of its chain stands for the chain and a progress. -/
theorem exists_eq_of (h : ∀ key, key ∈ state.pending ↔ key ∈ state.chain) :
    ∃ p, state = of state.chain p :=
  ⟨⟨state.included.toList, state.segments⟩, eq_of h (Finset.toList_toFinset _) rfl⟩

end LoadState

namespace Loader

variable {loader : Loader} {fs : FileSystem} {p q : Progress}

theorem VisitsAll.exists_adds {chain : List Location} {directives : List LoadDirective}
    (h : VisitsAll loader fs chain directives p q) : ∃ added, Progress.Adds fs p q added := by
  induction h with
  | done _ p => exact ⟨[], .refl fs p⟩
  | known _ _ _ _ _ ih => exact ih
  | enter hkey _ _ hsource _ _ ih1 ih2 =>
    obtain ⟨first, hfirst⟩ := ih1
    obtain ⟨second, hsecond⟩ := ih2
    exact ⟨_, (hfirst.trans (.emit hkey hsource)).trans hsecond⟩

theorem Visits.exists_adds {chain : List Location} {path : Path} {key : Location} {source : String}
    (h : Visits loader fs chain path key source p q) :
    ∃ added, Progress.Adds fs p q (added ++ [⟨path, source⟩]) := by
  obtain ⟨hkey, hsource, below, hbelow, rfl⟩ := h
  obtain ⟨added, hadded⟩ := hbelow.exists_adds
  exact ⟨added, hadded.trans (.emit hkey hsource)⟩

end Loader

namespace LoadCall

variable {loader : Loader} {fs : FileSystem} {call outer inner : LoadCall}

namespace Sound

theorem not_mem_chain (h : call.Sound loader fs) : call.key ∉ call.state.chain :=
  mt (h.pending_iff _).2 h.not_pending

theorem run_eq (h : call.Sound loader fs) {p : Progress}
    (hstate : call.state = .of call.state.chain p) :
    call.run loader fs = ended
      ((loader.visit fs call.state.chain call.path call.key call.source p).map
        (.of call.state.chain)) := by
  rw [run, ← Loader.trackedVisit_of loader fs call.path call.source p h.not_mem_chain, ← hstate]

theorem leaves (h : call.Sound loader fs) {after : LoadState}
    (hrun : call.run loader fs = ended (.ok after)) : ∃ added, call.Leaves fs after added := by
  obtain ⟨p, hstate⟩ := LoadState.exists_eq_of h.pending_iff
  have hpending : call.state.chain.toFinset = call.state.pending := by rw [hstate]; rfl
  have hsegments : p.segments = call.state.segments := by rw [hstate]; rfl
  have hincluded : ∀ key, key ∈ p.included ↔ key ∈ call.state.included := by
    intro key
    rw [hstate, LoadState.mem_included_of]
  obtain ⟨q, hvisit, rfl⟩ := ended_map_eq_ok_iff.1 ((h.run_eq hstate).symm.trans hrun)
  obtain ⟨added, hadds⟩ := ((Loader.visits_iff h.locate h.textAt).1 hvisit).exists_adds
  have hmem : ∀ key, key ∈ (LoadState.of call.state.chain q).included ↔
      key ∈ call.state.included ∨
        ∃ s ∈ added ++ [⟨call.path, call.source⟩], fs.locate s.path = .ok key := by
    intro key
    rw [LoadState.mem_included_of, hadds.included_iff, hincluded]
  refine ⟨_, hpending, rfl, hsegments ▸ hadds.segments, List.getLast?_concat, fun s hs => ?_, hmem⟩
  obtain ⟨key, hkey, hsource⟩ := hadds.texts s hs
  exact ⟨key, (hmem key).2 (.inr ⟨s, hs, hkey⟩), hkey, hsource⟩

/-- A call that is made on the way is as sound as the one that makes it, and finds the file of that
one at the end of the chain. -/
theorem makes (h : outer.Sound loader fs) (hmakes : Makes loader fs outer inner) :
    inner.Sound loader fs ∧ inner.state.chain = outer.state.chain ++ [outer.key] := by
  obtain ⟨before, directive, rest, hdirectives, hpath, hfollowed⟩ := hmakes.asks
  obtain ⟨p, hstate⟩ := LoadState.exists_eq_of h.pending_iff
  rw [hstate, LoadState.push_of, Loader.trackedVisitAll_of] at hfollowed
  obtain ⟨q, -, hinner⟩ := ended_map_eq_ok_iff.1 hfollowed
  have hchain : inner.state.chain = outer.state.chain ++ [outer.key] := by rw [← hinner]; rfl
  have hkey := Loader.locate_eq_ok.1 hmakes.locate
  have hload : loader.Loads fs outer.key inner.key :=
    ⟨outer.source, h.textAt, directive, by simp [hdirectives], hpath ▸ hkey⟩
  have hnodup : (outer.state.chain ++ [outer.key]).Nodup := by
    rw [← List.concat_eq_append]
    exact h.nodup.concat h.not_mem_chain
  refine ⟨⟨fun key => ?_, hchain ▸ hnodup, hkey, Loader.readAt_eq_ok.1 hmakes.read,
    hmakes.not_pending, ?_⟩, hchain⟩
  · rw [hchain, ← hinner, LoadState.mem_pending_of]
  · rw [hchain, List.isChain_append]
    exact ⟨h.linked, List.isChain_singleton _, by simpa using hload⟩

/-- Every call that is made on the way is sound, and its chain goes on from the file that the first
one is for. -/
theorem makes_all (h : call.Sound loader fs) (hmakes : TransGen (Makes loader fs) call inner) :
    inner.Sound loader fs ∧ call.state.chain ++ [call.key] <+: inner.state.chain := by
  induction hmakes with
  | single hmakes =>
    obtain ⟨hsound, hchain⟩ := h.makes hmakes
    exact ⟨hsound, hchain ▸ List.prefix_refl _⟩
  | tail _ hmakes ih =>
    obtain ⟨hsound, hchain⟩ := ih.1.makes hmakes
    exact ⟨hsound, ih.2.trans (hchain ▸ List.prefix_append ..)⟩

end Sound

/-- A sound call comes to the outcome of the search that passes the chain down. If it succeeds, it
leaves the pending files and the chain as they were and only adds to the rest; whether it succeeds
or not, every call made on the way is sound again. -/
theorem leaves_of_sound (h : call.Sound loader fs) :
    (∀ p : Progress, p.included.toFinset = call.state.included →
      p.segments = call.state.segments → call.run loader fs = ended
        ((loader.visit fs call.state.chain call.path call.key call.source p).map
          (.of call.state.chain))) ∧
    (∀ after, call.run loader fs = ended (.ok after) → ∃ added, call.Leaves fs after added) ∧
    ∀ inner, TransGen (Makes loader fs) call inner →
      inner.Sound loader fs ∧ call.state.chain ++ [call.key] <+: inner.state.chain :=
  ⟨fun _ hincluded hsegments => h.run_eq (LoadState.eq_of h.pending_iff hincluded hsegments),
    fun _ hrun => h.leaves hrun, fun _ hmakes => h.makes_all hmakes⟩

def nestedFiles : FileSystem :=
  ⟨[("a.js", .ofText "load('b.js')"), ("b.js", .ofText "load('c.js')"), ("c.js", .ofText "c")],
    ⟨[]⟩⟩

/-- `b.js` is loaded because `a.js` asks for it. -/
def nestedCall : LoadCall :=
  ⟨⟨"/b.js"⟩, ⟨["b.js"]⟩, "load('c.js')", ⟨{⟨["a.js"]⟩}, [⟨["a.js"]⟩], ∅, []⟩⟩

/-- `c.js` is loaded because `b.js` asks for it. -/
def innerCall : LoadCall :=
  ⟨⟨"/c.js"⟩, ⟨["c.js"]⟩, "c", nestedCall.state.push ⟨["b.js"]⟩⟩

theorem nestedCall_sound : nestedCall.Sound Loader.bareLoader nestedFiles where
  pending_iff := by simp [nestedCall]
  nodup := List.nodup_singleton _
  locate := by rfl
  textAt := by decide +kernel
  not_pending := by decide
  linked := by
    have htextA : nestedFiles.textAt ⟨["a.js"]⟩ = .ok "load('b.js')" := by decide +kernel
    have hasksA : loadDirectives "load('b.js')" = [⟨"b.js", 1⟩] := by decide +kernel
    have hload : Loader.bareLoader.Loads nestedFiles ⟨["a.js"]⟩ ⟨["b.js"]⟩ :=
      ⟨_, htextA, ⟨"b.js", 1⟩, by simp [hasksA], by rfl⟩
    exact List.isChain_pair.2 hload

theorem nestedCall_makes_innerCall :
    Makes Loader.bareLoader nestedFiles nestedCall innerCall where
  asks := by
    have hasksB : loadDirectives nestedCall.source = [⟨"c.js", 1⟩] := by decide +kernel
    refine ⟨[], ⟨"c.js", 1⟩, [], hasksB, by rfl, ?_⟩
    rw [Loader.trackedVisitAll]
    rfl
  isFile := by rfl
  locate := by rfl
  not_pending := by decide
  not_included := by decide
  read := by decide +kernel

/-- The state after it: `c.js` is loaded before `b.js`, which is not pending any more. -/
def nestedAfter : LoadState where
  pending := {⟨["a.js"]⟩}
  chain := [⟨["a.js"]⟩]
  included := {⟨["b.js"]⟩, ⟨["c.js"]⟩}
  segments := [⟨⟨"/c.js"⟩, "c"⟩, ⟨⟨"/b.js"⟩, "load('c.js')"⟩]

theorem nestedCall_run :
    nestedCall.run Loader.bareLoader nestedFiles = ended (.ok nestedAfter) := by
  have hasksB : loadDirectives "load('c.js')" = [⟨"c.js", 1⟩] := by decide +kernel
  have hasksC : loadDirectives "c" = [] := by decide +kernel
  have hlocC : nestedFiles.locate (Loader.bareLoader.resolve "c.js") = .ok ⟨["c.js"]⟩ := by rfl
  have htextC : nestedFiles.textAt ⟨["c.js"]⟩ = .ok "c" := by decide +kernel
  have hinner : Loader.VisitsAll Loader.bareLoader nestedFiles [⟨["a.js"]⟩, ⟨["b.js"]⟩]
      (loadDirectives "load('c.js')") .start (.emit .start ⟨["c.js"]⟩ ⟨⟨"/c.js"⟩, "c"⟩) := by
    rw [hasksB]
    refine .enter hlocC (by decide) (by decide) htextC ?_ (.done ..)
    rw [hasksC]
    exact .done ..
  have hvisits : Loader.Visits Loader.bareLoader nestedFiles nestedCall.state.chain nestedCall.path
      nestedCall.key nestedCall.source .start
      ⟨[⟨["b.js"]⟩, ⟨["c.js"]⟩], nestedAfter.segments⟩ :=
    ⟨nestedCall_sound.locate, nestedCall_sound.textAt, _, hinner, rfl⟩
  rw [nestedCall_sound.run_eq (p := .start) (by rfl),
    (Loader.visits_iff hvisits.locate hvisits.textAt).2 hvisits]
  rfl

/-- Loading `b.js` below `a.js` leaves `a.js` pending, and finds both pending where it loads
`c.js`. -/
theorem leaves_of_sound_nestedCall :
    (∃ added, nestedCall.Leaves nestedFiles nestedAfter added) ∧
      innerCall.Sound Loader.bareLoader nestedFiles ∧
        [⟨["a.js"]⟩, ⟨["b.js"]⟩] <+: innerCall.state.chain := by
  obtain ⟨-, hleaves, hmakes⟩ := leaves_of_sound nestedCall_sound
  exact ⟨hleaves _ nestedCall_run, hmakes _ (.single nestedCall_makes_innerCall)⟩

end LoadCall

end EngineTrials
