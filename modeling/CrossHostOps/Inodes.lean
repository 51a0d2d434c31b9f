import Mathlib.Data.List.Basic
import Mathlib.Order.Basic

/-!
A directory of files that are open while their names change: names lead to inodes, a handle is the
number of an inode and keeps it whatever becomes of the name.
-/

namespace CrossHostOps.Inodes

variable {ν α : Type*}

/-- Each inode has one name at most. -/
structure Directory (ν α : Type*) where
  entry : ν → Option ℕ
  data : ℕ → List α
  next : ℕ
  lt_next : ∀ {name i}, entry name = some i → i < next
  inj : ∀ {name name' i}, entry name = some i → entry name' = some i → name = name'

namespace Directory

def content (d : Directory ν α) (name : ν) : Option (List α) := (d.entry name).map d.data

def setData (d : Directory ν α) (i : ℕ) (data : List α) : Directory ν α :=
  { d with data := Function.update d.data i data }

variable {d d' : Directory ν α} {name name' : ν} {i : ℕ}

lemma content_eq_some {data : List α} (h : d.entry name = some i) (hdata : d.data i = data) :
    d.content name = some data := by
  rw [content, h, Option.map_some, hdata]

lemma content_setData_of_ne (h : d.entry name ≠ some i) (data : List α) :
    (d.setData i data).content name = d.content name := by
  rw [content, content]
  cases hentry : d.entry name with
  | none => simp [setData, hentry]
  | some j =>
    have hne : j ≠ i := fun hji => h (hji ▸ hentry)
    simp [setData, hentry, Function.update_of_ne hne]

/-- A write at an offset; a gap before it is filled. -/
def writeAt (fill : α) (d : Directory ν α) (i offset : ℕ) (chunk : List α) : Directory ν α :=
  let old := d.data i
  d.setData i (old.take offset ++ List.replicate (offset - old.length) fill ++ chunk ++
    old.drop (offset + chunk.length))

lemma data_writeAt_end {data : List α} (h : d.data i = data) (fill : α) (chunk : List α) :
    (d.writeAt fill i data.length chunk).data i = data ++ chunk := by
  simp [writeAt, setData, h]

variable [DecidableEq ν]

def create (d : Directory ν α) (name : ν) : Directory ν α where
  entry := Function.update d.entry name (some d.next)
  data := Function.update d.data d.next []
  next := d.next + 1
  lt_next {name' i} h := by
    by_cases hname : name' = name
    · subst hname
      rw [Function.update_self, Option.some.injEq] at h
      omega
    · rw [Function.update_of_ne hname] at h
      exact Nat.lt_succ_of_lt (d.lt_next h)
  inj {name₁ name₂ i} h₁ h₂ := by
    have hold : ∀ {name'}, name' ≠ name → ¬ Function.update d.entry name (some d.next) name' =
        some d.next := by
      intro name' hne h
      rw [Function.update_of_ne hne] at h
      exact Nat.lt_irrefl _ (d.lt_next h)
    by_cases hname₁ : name₁ = name <;> by_cases hname₂ : name₂ = name
    · rw [hname₁, hname₂]
    · rw [hname₁, Function.update_self] at h₁
      exact absurd (h₂.trans h₁.symm) (hold hname₂)
    · rw [hname₂, Function.update_self] at h₂
      exact absurd (h₁.trans h₂.symm) (hold hname₁)
    · rw [Function.update_of_ne hname₁] at h₁
      rw [Function.update_of_ne hname₂] at h₂
      exact d.inj h₁ h₂

/-- `open` with `O_CREAT | O_TRUNC`: the directory and the handle. -/
def openTruncate (d : Directory ν α) (name : ν) : Directory ν α × ℕ :=
  match d.entry name with
  | some i => (d.setData i [], i)
  | none => (d.create name, d.next)

/-- `rename`, which fails if there is no such file. -/
def rename (d : Directory ν α) (a b : ν) : Option (Directory ν α) :=
  match h : d.entry a with
  | none => none
  | some i => some {
      d with
      entry := fun name => if name = b then some i else if name = a then none else d.entry name
      lt_next := by
        intro name j hj
        split_ifs at hj
        · exact Option.some.inj hj ▸ d.lt_next h
        · exact d.lt_next hj
      inj := by
        intro name₁ name₂ j h₁ h₂
        split_ifs at h₁ h₂ with hb₁ hb₂ ha₂ ha₁ hb₂ ha₂
        · rw [hb₁, hb₂]
        · exact absurd (d.inj h₂ (h.trans h₁)) ha₂
        · exact absurd (d.inj h₁ (h.trans h₂)) ha₁
        · exact d.inj h₁ h₂ }

lemma openTruncate_self (d : Directory ν α) (name : ν) :
    (d.openTruncate name).1.entry name = some (d.openTruncate name).2 ∧
      (d.openTruncate name).1.data (d.openTruncate name).2 = [] := by
  rw [openTruncate]
  cases h : d.entry name with
  | some i => exact ⟨h, Function.update_self _ _ _⟩
  | none => exact ⟨Function.update_self _ _ _, Function.update_self _ _ _⟩

lemma content_openTruncate_of_ne (hne : name' ≠ name) :
    (d.openTruncate name).1.content name' = d.content name' := by
  rw [openTruncate]
  cases h : d.entry name with
  | some i => exact content_setData_of_ne (fun h' => hne (d.inj h' h)) []
  | none =>
    have hentry : (d.create name).entry name' = d.entry name' := Function.update_of_ne hne _ _
    rw [content, hentry, content]
    cases hname' : d.entry name' with
    | none => rfl
    | some j => exact congrArg some (Function.update_of_ne (Nat.ne_of_lt (d.lt_next hname')) _ _)

lemma rename_ok {a b : ν} (h : d.rename a b = some d') :
    d'.content b = d.content a := by
  rw [rename] at h
  split at h
  · cases h
  · rename_i i hentry
    cases h
    exact congrArg (Option.map d.data) ((if_pos rfl).trans hentry.symm)

end Directory

end CrossHostOps.Inodes
