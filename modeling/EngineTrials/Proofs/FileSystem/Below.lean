import EngineTrials.Proofs.FileSystem.Lookup

/-! Reaching the files below a folder. Names that are added to a path one by one lead on from where
the path leads, and so a file of a tree is read by the path of its folder with the names that lead
to it. -/

namespace EngineTrials

open Text (pieces)

namespace Path

variable {p q : Path} {name : String} {more : List Char}

theorem isAbsolute_append (hne : p.text ≠ "") (h : q.text.toList = p.text.toList ++ more) :
    q.isAbsolute = p.isAbsolute := by
  rw [isAbsolute, isAbsolute, h]
  cases htext : p.text.toList with
  | nil => simp_all
  | cons c rest => rfl

theorem body_append (hne : p.text ≠ "") (h : q.text.toList = p.text.toList ++ more) :
    q.body = p.body ++ more := by
  rw [body, body, isAbsolute_append hne h, h]
  split
  · cases htext : p.text.toList with
    | nil => simp_all
    | cons c rest => rfl
  · rfl

theorem join_text (hname : IsFileName name) (hne : p.text ≠ "") :
    p.text.toList.getLast? = some '/' ∧
        (p.join ⟨name⟩).text.toList = p.text.toList ++ name.toList ∨
      p.text.toList.getLast? ≠ some '/' ∧
        (p.join ⟨name⟩).text.toList = p.text.toList ++ '/' :: name.toList := by
  rw [join, if_neg (by simp [hname.isAbsolute])]
  split
  case h_1 hlast => simp_all
  case h_2 hlast => exact .inl ⟨hlast, by simp⟩
  case h_3 c hslash hlast =>
    rw [hlast, Ne, Option.some.injEq]
    exact .inr ⟨hslash, by simp⟩

theorem exists_join_text (hname : IsFileName name) (hne : p.text ≠ "") :
    ∃ more, (p.join ⟨name⟩).text.toList = p.text.toList ++ more ∧
      ∀ c ∈ more, c = '/' ∨ c ∈ name.toList := by
  rcases join_text hname hne with ⟨-, htext⟩ | ⟨-, htext⟩
  · exact ⟨_, htext, fun c hc => .inr hc⟩
  · exact ⟨_, htext, fun c hc => List.mem_cons.1 hc⟩

/-- A name that is joined to a path is its last step, after those of the path but for one that
stays. -/
theorem exists_steps_join (hname : IsFileName name) (hne : p.text ≠ "") :
    ∃ front, (p.join ⟨name⟩).steps = front ++ [.name name] ∧ Step.Shortens p.steps front := by
  have hpiece : (pieces '/' name.toList).map Step.ofPiece = [.name name] := by
    rw [Text.pieces_of_not_mem hname.no_slash, List.map_singleton, hname.ofPiece]
  rw [steps_eq, steps_eq]
  rcases join_text hname hne with ⟨hlast, htext⟩ | ⟨-, htext⟩
  · rw [body_append hne htext]
    rcases List.eq_nil_or_concat p.body with hbody | ⟨front, last, hbody⟩
    · rw [hbody, List.nil_append, hpiece]
      exact ⟨[], rfl, .drop .nil⟩
    · -- the path ends in a slash, and what stands after it is a step that stays
      obtain rfl : last = '/' := by
        have hsuffix : p.body <:+ p.text.toList := by
          rw [body]
          split
          · exact List.drop_suffix ..
          · exact List.suffix_refl _
        obtain ⟨before, hbefore⟩ := hsuffix
        rw [← hbefore, hbody, List.concat_eq_append, ← List.append_assoc,
          List.getLast?_concat] at hlast
        exact Option.some.inj hlast
      rw [hbody, List.concat_eq_append, List.append_assoc, List.singleton_append,
        Text.pieces_append_cons, Text.pieces_append_cons, List.map_append, List.map_append, hpiece]
      refine ⟨_, rfl, ?_⟩
      have hshort := Step.Shortens.append_left (.drop .nil) ((pieces '/' front).map Step.ofPiece)
      rwa [List.append_nil] at hshort
  · rw [body_append hne htext, Text.pieces_append_cons, List.map_append, hpiece]
    exact ⟨_, rfl, .refl _⟩

end Path

namespace FileSystem

variable {fs : FileSystem} {here mid place : Location} {steps more : List Step} {links : Nat}
  {names : List String} {children : List (String × Entry)} {name : String} {p : Path} {e : Entry}

theorem walk_append {jump : Location → List Step → Except FileFault Location}
    (hjump : ∀ {here steps}, jump here steps = .ok mid → jump here (steps ++ more) = .ok place)
    (hmore : fs.walk jump mid more = .ok place) (h : fs.walk jump here steps = .ok mid) :
    fs.walk jump here (steps ++ more) = .ok place := by
  -- a link puts its target in front of the steps left, and what is added stays behind them
  induction steps generalizing here with
  | nil =>
    obtain rfl : here = mid := Except.ok.inj h
    exact hmore
  | cons step rest ih =>
    rw [List.cons_append, walk_cons_iff]
    cases walk_cons_iff.1 h with
    | stay hfolder hwalk => exact .stay hfolder (ih hwalk)
    | up hfolder hwalk => exact .up hfolder (ih hwalk)
    | entry hfolder hlimit hentry hlink hwalk => exact .entry hfolder hlimit hentry hlink (ih hwalk)
    | link hfolder hlimit hentry hgoes =>
      refine .link hfolder hlimit hentry ?_
      rw [← List.append_assoc]
      exact hjump hgoes

/-- Steps lead on from where the steps before them lead, if they take no link. -/
theorem follow_append (hmore : ∀ n, fs.follow n mid more = .ok place)
    (h : fs.follow links here steps = .ok mid) :
    fs.follow links here (steps ++ more) = .ok place := by
  induction links generalizing here steps with
  | zero => exact walk_append (by simp) (hmore 0) h
  | succ links ih => exact walk_append ih (hmore (links + 1)) h

/-- The name of an entry leads on to it, unless a link has it. -/
theorem locate_entry (h : fs.locate p = .ok here)
    (hfolder : fs.entry? here = some (.folder children)) (hname : IsEntryName name)
    (hentry : fs.entry? (here.child name) = some e) (hlink : ∀ target, e ≠ .link target) :
    fs.locate (p.join ⟨name⟩) = .ok (here.child name) := by
  obtain ⟨hzero, hne, hfollow⟩ := locate_eq_ok_iff.1 h
  obtain ⟨more, htext, hmore⟩ := Path.exists_join_text hname.toIsFileName hne
  obtain ⟨front, hsteps, hshort⟩ := Path.exists_steps_join hname.toIsFileName hne
  refine locate_eq_ok_iff.2 ⟨?_, ?_, ?_⟩
  · rw [htext]
    intro hmem
    rcases List.mem_append.1 hmem with hp | hmem
    · exact hzero hp
    · rcases hmore _ hmem with hslash | hzero
      · contradiction
      · exact hname.no_zero hzero
  · intro hempty
    rw [hempty] at htext
    exact hne (String.toList_eq_nil_iff.1 (List.append_eq_nil_iff.1 htext.symm).1)
  · rw [base, Path.isAbsolute_append hne htext, ← base, hsteps]
    refine follow_append (fun n => ?_) (follow_shortens linkLimit hshort hfollow)
    obtain ⟨jump, hjump⟩ := fs.exists_jump n
    rw [hjump]
    exact walk_cons_iff.2 (.entry hfolder (Nat.not_lt.2 hname.fits) hentry hlink rfl)

/-- The names that lead from a folder to an entry lead on to it, if it is no link. -/
theorem locate_below (h : fs.locate p = .ok here) (hnames : ∀ name ∈ names, IsEntryName name)
    (hentry : fs.entry? ⟨here.names ++ names⟩ = some e) (hlink : ∀ target, e ≠ .link target) :
    fs.locate (names.foldl (fun path name => path.join ⟨name⟩) p) =
      .ok ⟨here.names ++ names⟩ := by
  induction names generalizing p here with
  | nil => simpa using h
  | cons name rest ih =>
    obtain ⟨hname, hrest⟩ := List.forall_mem_cons.1 hnames
    obtain ⟨children, hfolder⟩ := exists_folder_of_append (List.cons_ne_nil name rest) hentry
    have hnames : here.names ++ name :: rest = (here.child name).names ++ rest := by
      simp [Location.child]
    rw [hnames] at hentry ⊢
    obtain ⟨inner, hinner, hat⟩ := Option.bind_eq_some_iff.1 (entry?_append ▸ hentry)
    -- nothing is below a link, and the last entry is none
    have hinnerLink : ∀ target, inner ≠ .link target := by
      rintro target rfl
      cases rest with
      | nil => exact hlink target (Option.some.inj hat).symm
      | cons next more => simp [Entry.at?, Entry.child?] at hat
    exact ih (locate_entry h hfolder hname hinner hinnerLink) hrest hentry

end FileSystem

end EngineTrials
