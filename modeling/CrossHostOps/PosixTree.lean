import Mathlib.Data.List.Infix

/-!
A tree of named nodes with symbolic links, and the walk that takes a path to its place.

The walk knows no permissions. It gives up after a number of links, as kernels do.
-/

namespace CrossHostOps.PosixTree

open List

inductive Step (N : Type)
  | here
  | up
  | down (name : N)
  deriving DecidableEq

inductive Node (N : Type)
  | file (inode : ℕ)
  | dir
  | link (absolute : Bool) (target : List (Step N))
  deriving DecidableEq

/-- A place in the tree: the names from the root down to it. -/
abbrev Loc (N : Type) := List N

abbrev FileTree (N : Type) := Loc N → Option (Node N)

inductive WalkError
  | notFound
  | notADirectory
  | tooManyLinks

variable {N : Type}

def isLink : Option (Node N) → Bool
  | some (.link ..) => true
  | _ => false

/-- The walk up to the first link; from there `jump` goes on. The last component need not exist,
and is followed only if `follow` says so. -/
def walkWith (t : FileTree N) (follow : Bool)
    (jump : Loc N → List (Step N) → Except WalkError (Loc N)) :
    Loc N → List (Step N) → Except WalkError (Loc N)
  | cur, [] => .ok cur
  | cur, .here :: rest => walkWith t follow jump cur rest
  | cur, .up :: rest => walkWith t follow jump cur.dropLast rest
  | cur, .down name :: rest =>
    match t (cur ++ [name]) with
    | none => if rest.isEmpty then .ok (cur ++ [name]) else .error .notFound
    | some .dir => walkWith t follow jump (cur ++ [name]) rest
    | some (.file _) => if rest.isEmpty then .ok (cur ++ [name]) else .error .notADirectory
    | some (.link absolute target) =>
      if rest.isEmpty && !follow then .ok (cur ++ [name])
      else jump (if absolute then [] else cur) (target ++ rest)

/-- The walk from `cur`, through at most `links` links. -/
def walk (t : FileTree N) (follow : Bool) : (links : ℕ) → Loc N → List (Step N) →
    Except WalkError (Loc N)
  | 0 => walkWith t follow fun _ _ => .error .tooManyLinks
  | links + 1 => walkWith t follow (walk t follow links)

/-- The names of a path that goes nowhere up. -/
def names : List (Step N) → List N
  | [] => []
  | .down name :: steps => name :: names steps
  | _ :: steps => names steps

/-- No link stands at the places of a path, the last of them apart unless `follow`. -/
def NoLinks (t : FileTree N) (follow : Bool) (cur : Loc N) (steps : List (Step N)) : Prop :=
  ∀ q, q <+: steps → q ≠ [] → (follow = true ∨ q ≠ steps) → isLink (t (cur ++ names q)) = false

variable {t : FileTree N} {follow : Bool}

lemma walkWith_of_noLinks {jump : Loc N → List (Step N) → Except WalkError (Loc N)}
    {steps : List (Step N)} : ∀ {cur l : Loc N}, .up ∉ steps → NoLinks t follow cur steps →
    walkWith t follow jump cur steps = .ok l → l = cur ++ names steps := by
  induction steps with
  | nil =>
    intro cur l _ _ h
    cases h
    simp [names]
  | cons s steps ih =>
    intro cur l hup hlinks h
    have hup' : .up ∉ steps := fun hmem => hup (mem_cons_of_mem _ hmem)
    cases s with
    | up => simp at hup
    | here =>
      refine ih hup' (fun q hq hne hlast => ?_) h
      exact hlinks (.here :: q) ((prefix_cons_inj _).2 hq) (by simp) (by simpa using hlast)
    | down name =>
      have htail : NoLinks t follow (cur ++ [name]) steps := by
        intro q hq hne hlast
        have := hlinks (.down name :: q) ((prefix_cons_inj _).2 hq) (by simp)
          (by simpa using hlast)
        simpa [names] using this
      unfold walkWith at h
      cases hnode : t (cur ++ [name]) with
      | none =>
        rw [hnode] at h
        rcases steps with _ | ⟨s', steps⟩
        · cases h
          rfl
        · cases h
      | some n =>
        rw [hnode] at h
        cases n with
        | dir =>
          rw [ih hup' htail h]
          simp [names]
        | file inode =>
          rcases steps with _ | ⟨s', steps⟩
          · cases h
            rfl
          · cases h
        | link absolute target =>
          -- a link may only be the last component, and is not followed then
          by_cases hlast : follow = true ∨ steps ≠ []
          · have hno := hlinks [.down name] (by simp) (by simp) (by
              rcases hlast with hf | hs
              · exact .inl hf
              · exact .inr (by simpa using Ne.symm hs))
            simp [names, hnode, isLink] at hno
          · obtain ⟨hf, rfl⟩ : follow = false ∧ steps = [] := by simpa using hlast
            subst hf
            cases h
            rfl

/-- A walk that goes nowhere up and meets no link ends where its names say. -/
lemma walk_of_noLinks {links : ℕ} {cur l : Loc N} {steps : List (Step N)} (hup : .up ∉ steps)
    (hlinks : NoLinks t follow cur steps) (h : walk t follow links cur steps = .ok l) :
    l = cur ++ names steps := by
  cases links <;> exact walkWith_of_noLinks hup hlinks h

/-! ### Trees without links -/

/-- How far above its start a path leads, and the names from there down. -/
structure Course (N : Type) where
  up : ℕ
  names : List N

namespace Course

def step (c : Course N) : Step N → Course N
  | .here => c
  | .up => if c.names.isEmpty then ⟨c.up + 1, []⟩ else ⟨c.up, c.names.dropLast⟩
  | .down name => ⟨c.up, c.names ++ [name]⟩

def along (c : Course N) (steps : List (Step N)) : Course N := steps.foldl step c

lemma along_cons (c : Course N) (s : Step N) (steps : List (Step N)) :
    c.along (s :: steps) = (c.step s).along steps := rfl

lemma step_up_of_nil {c : Course N} (h : c.names = []) : c.step .up = ⟨c.up + 1, []⟩ := by
  simp [step, h]

lemma step_up_of_ne_nil {c : Course N} (h : c.names ≠ []) :
    c.step .up = ⟨c.up, c.names.dropLast⟩ := by
  simp [step, h]

lemma up_le_step (c : Course N) (s : Step N) : c.up ≤ (c.step s).up := by
  cases s with
  | up =>
    rw [step]
    split_ifs <;> simp
  | here | down name => exact le_rfl

lemma up_le_along (c : Course N) (steps : List (Step N)) : c.up ≤ (c.along steps).up := by
  induction steps generalizing c with
  | nil => exact le_rfl
  | cons s steps ih => exact (c.up_le_step s).trans (ih (c.step s))

lemma along_down (c : Course N) (names : List N) :
    c.along (names.map .down) = ⟨c.up, c.names ++ names⟩ := by
  induction names generalizing c with
  | nil => simp [along]
  | cons name names ih =>
    refine (ih (c.step (.down name))).trans ?_
    simp [step]

end Course

/-- The places on the way down the names are directories. -/
def DirsTo (t : FileTree N) (base : Loc N) (names : List N) : Prop :=
  ∀ q, q <+: names → q ≠ [] → t (base ++ q) = some .dir

section linkless

variable {links : ℕ} {cur l base : Loc N} {name : N} {rest steps : List (Step N)} {ns : List N}

lemma walk_here : walk t follow links cur (.here :: rest) = walk t follow links cur rest := by
  cases links <;> rfl

lemma walk_up : walk t follow links cur (.up :: rest) = walk t follow links cur.dropLast rest := by
  cases links <;> rfl

/-- Without links, a name leads to the place below. -/
lemma walk_down (hlinks : isLink (t (cur ++ [name])) = false) :
    walk t follow links cur (.down name :: rest) =
      if rest.isEmpty then .ok (cur ++ [name])
      else match t (cur ++ [name]) with
        | some .dir => walk t follow links (cur ++ [name]) rest
        | some _ => .error .notADirectory
        | none => .error .notFound := by
  cases rest with
  | nil | cons => cases links <;> simp only [walk, walkWith] <;> split <;> simp_all [isLink]

lemma walk_down_ok (hlinks : isLink (t (cur ++ [name])) = false)
    (h : walk t follow links cur (.down name :: rest) = .ok l) :
    (rest = [] ∧ l = cur ++ [name]) ∨
      (t (cur ++ [name]) = some .dir ∧ walk t follow links (cur ++ [name]) rest = .ok l) := by
  rw [walk_down hlinks] at h
  split_ifs at h with hrest
  · cases h
    exact .inl ⟨isEmpty_iff.1 hrest, rfl⟩
  · split at h
    · exact .inr ⟨‹_›, h⟩
    · cases h
    · cases h

/-- Names lead through directories to their place. -/
lemma walk_of_dirs (hlinks : ∀ l, isLink (t l) = false)
    (hdirs : DirsTo t base ns.dropLast) :
    walk t follow links base (ns.map .down) = .ok (base ++ ns) := by
  induction ns generalizing base with
  | nil => cases links <;> simp [walk, walkWith]
  | cons name ns ih =>
    rw [map_cons, walk_down (hlinks _)]
    cases ns with
    | nil => simp
    | cons name' ns =>
      have hdir : t (base ++ [name]) = some .dir := hdirs [name] (by simp) (by simp)
      have hrest : walk t follow links (base ++ [name]) ((name' :: ns).map .down) =
          .ok (base ++ [name] ++ (name' :: ns)) := by
        refine ih fun q hq hne => ?_
        have hbelow := hdirs (name :: q) (by simpa using hq) (by simp)
        simpa using hbelow
      simpa [hdir] using hrest

lemma DirsTo.mono {ns' : List N} (h : DirsTo t base ns) (hns : ns' <+: ns) : DirsTo t base ns' :=
  fun q hq => h q (hq.trans hns)

lemma DirsTo.concat (h : DirsTo t base ns) (hdir : t (base ++ ns ++ [name]) = some .dir) :
    DirsTo t base (ns ++ [name]) := by
  intro q hq hne
  rcases prefix_concat_iff.1 hq with rfl | hq
  · rwa [append_assoc] at hdir
  · exact h q hq hne

/-- **A walk that succeeds ends where its course leads**, and all places on the straight way there
are directories. A path from the root cannot lead above it. -/
theorem walk_course (hlinks : ∀ l, isLink (t l) = false) {c : Course N}
    (hdirs : DirsTo t base c.names) (hup : base = [] ∨ (c.along steps).up = c.up)
    (h : walk t follow links (base ++ c.names) steps = .ok l) :
    l = base ++ (c.along steps).names ∧ DirsTo t base (c.along steps).names.dropLast := by
  induction steps generalizing c with
  | nil =>
    have hend : walk t follow links (base ++ c.names) [] = .ok (base ++ c.names) := by
      cases links <;> rfl
    rw [hend] at h
    cases h
    exact ⟨rfl, hdirs.mono (List.dropLast_prefix _)⟩
  | cons s steps ih =>
    cases s with
    | here =>
      rw [walk_here] at h
      exact ih hdirs hup h
    | up =>
      rw [walk_up] at h
      rw [Course.along_cons] at hup ⊢
      by_cases hnames : c.names = []
      · rw [Course.step_up_of_nil hnames] at hup ⊢
        -- only the root has no place above it
        have hroot : base = [] := by
          have hle := Course.up_le_along ⟨c.up + 1, []⟩ steps
          exact hup.resolve_right fun hsame => by simp only [hsame] at hle; omega
        refine ih (fun q hq hne => absurd (prefix_nil.1 hq) hne) (.inl hroot) ?_
        rw [hnames, hroot] at h
        rw [hroot]
        exact h
      · rw [Course.step_up_of_ne_nil hnames] at hup ⊢
        rw [dropLast_append_of_ne_nil hnames] at h
        exact ih (hdirs.mono (List.dropLast_prefix _)) hup h
    | down name =>
      rcases walk_down_ok (hlinks _) h with ⟨rfl, rfl⟩ | ⟨hdir, hrest⟩
      · simpa [Course.along, Course.step] using hdirs
      · refine ih (c := c.step (.down name)) (hdirs.concat hdir) hup ?_
        rwa [append_assoc] at hrest

/-- Where everything is a directory, a path leads up from its start and then down. -/
lemma walk_everywhere (hall : ∀ l, t l = some .dir) {c : Course N}
    (hdeep : (c.along steps).up ≤ base.length) :
    walk t follow links (base.take (base.length - c.up) ++ c.names) steps =
      .ok (base.take (base.length - (c.along steps).up) ++ (c.along steps).names) := by
  induction steps generalizing c with
  | nil => cases links <;> rfl
  | cons s steps ih =>
    have hnext := ih (c := c.step s) hdeep
    refine Eq.trans ?_ hnext
    cases s with
    | here => exact walk_here
    | up =>
      rw [walk_up]
      by_cases hnames : c.names = []
      · rw [Course.step_up_of_nil hnames]
        rw [hnames, append_nil, append_nil, dropLast_eq_take, length_take, take_take]
        congr 2
        simp only
        omega
      · rw [Course.step_up_of_ne_nil hnames, dropLast_append_of_ne_nil hnames]
    | down name =>
      have hlink : ∀ l, isLink (t l) = false := fun l => by rw [hall]; rfl
      rw [walk_down (hlink _), hall]
      cases steps with
      | nil => cases links <;> simp [walk, walkWith, Course.step]
      | cons s steps => simp [Course.step]

end linkless

end CrossHostOps.PosixTree
