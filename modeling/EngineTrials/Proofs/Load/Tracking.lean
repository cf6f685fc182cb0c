import EngineTrials.Proofs.Load.Search
import Mathlib.Data.Finset.Basic
import Mathlib.Data.List.Chain

/-! Loading with its bookkeeping in one state: the files that are being loaded are kept as a set and
as a chain, and a file is put into both when it is entered and taken out of both when it is left.
Nothing but the set is asked whether a directive leads back, so it is not clear from the start that
such a search ends. From a state whose set is that of its chain it does, with the outcome of the
search that passes the chain down, and it leaves the set and the chain as they were. -/

namespace EngineTrials

open Relation

/-- What is kept while files are loaded. -/
structure LoadState where
  /-- The files that are being loaded. -/
  pending : Finset Location
  /-- The same files, from the outermost on. -/
  chain : List Location
  /-- The files whose text is among the segments. -/
  included : Finset Location
  segments : List Segment
  deriving DecidableEq

namespace LoadState

/-- A file is entered. -/
def push (state : LoadState) (key : Location) : LoadState :=
  { state with pending := insert key state.pending, chain := state.chain ++ [key] }

/-- A file is left, with its text as the next segment. -/
def pop (state : LoadState) (key : Location) (segment : Segment) : LoadState where
  chain := state.chain.dropLast
  pending := state.pending.erase key
  included := insert key state.included
  segments := state.segments ++ [segment]

/-- The state that a chain and a progress stand for. -/
def of (chain : List Location) (p : Progress) : LoadState :=
  ⟨chain.toFinset, chain, p.included.toFinset, p.segments⟩

variable {chain : List Location} {key : Location} {p : Progress}

theorem mem_pending_of : key ∈ (of chain p).pending ↔ key ∈ chain := List.mem_toFinset

theorem mem_included_of : key ∈ (of chain p).included ↔ key ∈ p.included := List.mem_toFinset

theorem push_of : (of chain p).push key = of (chain ++ [key]) p := by
  have hpending : insert key chain.toFinset = (chain ++ [key]).toFinset := by
    ext other
    simp only [Finset.mem_insert, List.mem_toFinset, List.mem_append, List.mem_singleton, or_comm]
  rw [push, of, of, hpending]

/-- Leaving a file undoes entering it, because it was not on the chain before. -/
theorem pop_of (hnew : key ∉ chain) (segment : Segment) :
    (of (chain ++ [key]) p).pop key segment = of chain (p.emit key segment) := by
  have hpending : (chain ++ [key]).toFinset.erase key = chain.toFinset := by
    ext other
    simp only [Finset.mem_erase, List.mem_toFinset, List.mem_append, List.mem_singleton]
    constructor
    · rintro ⟨hne, hmem⟩
      exact hmem.resolve_right hne
    · intro hmem
      exact ⟨fun heq => hnew (heq ▸ hmem), .inl hmem⟩
  have hincluded : insert key p.included.toFinset = (key :: p.included).toFinset :=
    List.toFinset_cons.symm
  unfold pop of Progress.emit
  rw [hpending, hincluded, List.dropLast_concat]

end LoadState

/-- A computation that has ended. -/
def ended {α : Type} (outcome : Except LoadFault α) : ExceptT LoadFault Option α :=
  .mk (some outcome)

theorem ended_ok_bind {α β : Type} (a : α) (f : α → ExceptT LoadFault Option β) :
    ended (.ok a) >>= f = f a := rfl

theorem ended_map_eq_ok_iff {α β : Type} {outcome : Except LoadFault α} {f : α → β} {b : β} :
    ended (outcome.map f) = ended (.ok b) ↔ ∃ a, outcome = .ok a ∧ f a = b := by
  have hinjective : ended (outcome.map f) = ended (.ok b) ↔ outcome.map f = .ok b :=
    ⟨Option.some.inj, congrArg ended⟩
  rw [hinjective]
  cases outcome with
  | error fault => simp [Except.map]
  | ok a => simp [Except.map]

namespace Loader

mutual

/-- Loads a file, found under `path`, and all that it asks for. -/
def trackedVisit (loader : Loader) (fs : FileSystem) (path : Path) (key : Location)
    (source : String) (state : LoadState) : ExceptT LoadFault Option LoadState := do
  let below ← loader |>.trackedVisitAll fs path (loadDirectives source) (state.push key)
  return below.pop key ⟨path, source⟩
partial_fixpoint

/-- Loads what directives of `origin` ask for. -/
def trackedVisitAll (loader : Loader) (fs : FileSystem) (origin : Path) :
    List LoadDirective → LoadState → ExceptT LoadFault Option LoadState
  | [], state => return state
  | directive :: rest, state =>
    let resolved := loader.resolve directive.path
    if fs.isFile resolved = false then
      throw (.missingDependency directive.path resolved origin)
    else do
      let key ← ended (locate fs resolved)
      if key ∈ state.pending then
        throw (.cyclicLoad ((state.chain ++ [key]).map Location.toPath))
      else if key ∈ state.included then
        loader |>.trackedVisitAll fs origin rest state
      else do
        let source ← ended (readAt fs resolved key)
        let state ← loader |>.trackedVisit fs resolved key source state
        loader |>.trackedVisitAll fs origin rest state
partial_fixpoint

end

variable {loader : Loader} {fs : FileSystem} {chain : List Location} {path origin : Path}
  {key : Location} {source : String}

theorem trackedVisit_of_trackedVisitAll {p : Progress} {outcome : Except LoadFault Progress}
    (hnew : key ∉ chain)
    (h : loader.trackedVisitAll fs path (loadDirectives source) (.of (chain ++ [key]) p) =
      ended (outcome.map (.of (chain ++ [key])))) :
    loader.trackedVisit fs path key source (.of chain p) =
      ended ((outcome.map (·.emit key ⟨path, source⟩)).map (.of chain)) := by
  rw [trackedVisit, LoadState.push_of, h]
  cases outcome with
  | error fault => rfl
  | ok below =>
    rw [Except.map, ended_ok_bind, LoadState.pop_of hnew]
    rfl

/-- What is made of a directive that leads to a file, from the state of a chain and a progress. -/
theorem trackedVisitAll_of_located {directive : LoadDirective} {rest : List LoadDirective}
    {p : Progress} (hfile : ¬ fs.isFile (loader.resolve directive.path) = false)
    (hkey : locate fs (loader.resolve directive.path) = .ok key) :
    loader.trackedVisitAll fs origin (directive :: rest) (.of chain p) =
      if key ∈ chain then throw (.cyclicLoad ((chain ++ [key]).map Location.toPath))
      else if key ∈ p.included then loader.trackedVisitAll fs origin rest (.of chain p)
      else ended (readAt fs (loader.resolve directive.path) key) >>= fun source =>
        loader.trackedVisit fs (loader.resolve directive.path) key source (.of chain p) >>=
          loader.trackedVisitAll fs origin rest := by
  rw [trackedVisitAll, if_neg hfile, hkey, ended_ok_bind]
  simp only [LoadState.mem_pending_of, LoadState.mem_included_of]
  rfl

/-- From the state of a chain and a progress, the search with its bookkeeping comes to the outcome
of the one that passes the chain down, and leaves the chain as it was. -/
theorem trackedVisitAll_of (loader : Loader) (fs : FileSystem) (chain : List Location)
    (origin : Path) (directives : List LoadDirective) (p : Progress) :
    loader.trackedVisitAll fs origin directives (.of chain p) =
      ended ((loader.visitAll fs chain origin directives p).map (.of chain)) := by
  fun_induction visitAll loader fs chain origin directives p with
  | case1 chain origin p =>
    rw [trackedVisitAll]
    rfl
  | case2 chain origin directive rest p resolved hmissing =>
    rw [trackedVisitAll, if_pos hmissing]
    rfl
  | case3 chain origin directive rest p resolved hfile fault hfault =>
    rw [trackedVisitAll, if_neg hfile, hfault]
    rfl
  | case4 chain origin directive rest p resolved hfile key hkey hchain =>
    rw [trackedVisitAll_of_located hfile hkey, if_pos hchain]
    rfl
  | case5 chain origin directive rest p resolved hfile key hkey hchain hknown ih =>
    rw [trackedVisitAll_of_located hfile hkey, if_neg hchain, if_pos hknown, ih]
  | case6 chain origin directive rest p resolved hfile key hkey hchain hnew fault hfault =>
    rw [trackedVisitAll_of_located hfile hkey, if_neg hchain, if_neg hnew, readAt, hfault]
    rfl
  | case7 chain origin directive rest p resolved hfile key hkey hchain hnew source hsource fault
      hfault ih =>
    rw [trackedVisitAll_of_located hfile hkey, if_neg hchain, if_neg hnew,
      readAt_eq_ok.2 hsource, ended_ok_bind, trackedVisit_of_trackedVisitAll hchain ih, hfault]
    rfl
  | case8 chain origin directive rest p resolved hfile key hkey hchain hnew source hsource below
      hbelow ih1 ih2 =>
    rw [trackedVisitAll_of_located hfile hkey, if_neg hchain, if_neg hnew,
      readAt_eq_ok.2 hsource, ended_ok_bind, trackedVisit_of_trackedVisitAll hchain ih1, hbelow,
      ← ih2]
    rfl

theorem trackedVisit_of (loader : Loader) (fs : FileSystem) (path : Path) (source : String)
    (p : Progress) (hnew : key ∉ chain) :
    loader.trackedVisit fs path key source (.of chain p) =
      ended ((loader.visit fs chain path key source p).map (.of chain)) := by
  rw [trackedVisit_of_trackedVisitAll hnew (trackedVisitAll_of ..)]
  unfold visit
  cases loader.visitAll fs (chain ++ [key]) path (loadDirectives source) p <;> rfl

end Loader

end EngineTrials
