import CrossHostOps.Text

/-!
Documents of TOML as an editor holds them: a tree that keeps apart the ways in which a table and a
list of tables are written.
-/

namespace CrossHostOps.Toml

open Text

/-- `other` is a value that is neither a string nor holds one. -/
inductive Item
  | str (value : Str)
  | other (raw : Str)
  | array (items : List Item)
  | inlineTable (entries : List (Str × Item))
  | table (entries : List (Str × Item))
  | arrayOfTables (tables : List (List (Str × Item)))

/-- The keys of a table are different, so that the first entry of a key is its only one. -/
abbrev Table := List (Str × Item)

namespace Item

def asStr : Item → Option Str
  | .str value => some value
  | _ => none

def asTable : Item → Option Table
  | .table entries => some entries
  | _ => none

def asTableLike : Item → Option Table
  | .table entries => some entries
  | .inlineTable entries => some entries
  | _ => none

def asArrayOfTables : Item → Option (List Table)
  | .arrayOfTables tables => some tables
  | _ => none

def mapTable (f : Table → Table) : Item → Item
  | .table entries => .table (f entries)
  | item => item

def mapTableLike (f : Table → Table) : Item → Item
  | .table entries => .table (f entries)
  | .inlineTable entries => .inlineTable (f entries)
  | item => item

def mapArrayOfTables (f : Table → Table) : Item → Item
  | .arrayOfTables tables => .arrayOfTables (tables.map f)
  | item => item

lemma asTableLike_mapTableLike (f : Table → Table) (item : Item) :
    (item.mapTableLike f).asTableLike = item.asTableLike.map f := by
  cases item <;> rfl

end Item

def strAt (t : Table) (key : Str) : Option Str := (t.lookup key).bind Item.asStr

def modify (t : Table) (key : Str) (f : Item → Item) : Table :=
  t.map fun (k, item) => (k, if k = key then f item else item)

def setStr (t : Table) (key value : Str) : Table := modify t key fun _ => .str value

lemma lookup_modify (t : Table) (key key' : Str) (f : Item → Item) :
    (modify t key f).lookup key' =
      if key' = key then (t.lookup key').map f else t.lookup key' := by
  induction t with
  | nil => simp [modify]
  | cons entry t ih =>
    obtain ⟨k, item⟩ := entry
    have hcons : modify ((k, item) :: t) key f =
        (k, if k = key then f item else item) :: modify t key f := rfl
    rw [hcons, List.lookup_cons, List.lookup_cons]
    by_cases hk : key' = k
    · subst hk
      by_cases hkey : key' = key <;> simp [hkey]
    · simpa [beq_eq_false_iff_ne.2 hk] using ih

lemma lookup_modify_self (t : Table) (key : Str) (f : Item → Item) :
    (modify t key f).lookup key = (t.lookup key).map f := by
  rw [lookup_modify, if_pos rfl]

lemma lookup_modify_of_ne {key key' : Str} (t : Table) (f : Item → Item) (h : key' ≠ key) :
    (modify t key f).lookup key' = t.lookup key' := by
  rw [lookup_modify, if_neg h]

lemma strAt_setStr_self {t : Table} {key value : Str} (new : Str) (h : strAt t key = some value) :
    strAt (setStr t key new) key = some new := by
  obtain ⟨item, hitem, -⟩ := Option.bind_eq_some_iff.1 h
  rw [strAt, setStr, lookup_modify_self, hitem]
  rfl

lemma strAt_modify_of_ne {key key' : Str} (t : Table) (f : Item → Item) (h : key' ≠ key) :
    strAt (modify t key f) key' = strAt t key' := by
  rw [strAt, lookup_modify_of_ne t f h, strAt]

end CrossHostOps.Toml
