import Mathlib.Data.Fintype.Order
import Mathlib.Logic.Relation

/-!
Nested calls: each call makes a list of further calls before it returns. Whether the nest is finite,
over any type of calls.
-/

namespace CrossHostOps.Nesting

open Relation

variable {α : Type*} {next : α → List α} {a b : α} {m n : ℕ}

/-- The first call makes the second. -/
def Calls (next : α → List α) (a b : α) : Prop := b ∈ next a

/-- The calls below this one are less than `n` deep. -/
def Within (next : α → List α) : ℕ → α → Prop
  | 0, _ => False
  | n + 1, a => ∀ b ∈ next a, Within next n b

lemma Within.mono (hle : m ≤ n) (h : Within next m a) : Within next n a := by
  induction m generalizing n a with
  | zero => cases h
  | succ m ih =>
    obtain ⟨n, rfl⟩ : ∃ n', n = n' + 1 := ⟨n - 1, by omega⟩
    exact fun b hb => ih (by omega) (h b hb)

/-- The deepest of finitely many calls bounds them all. -/
lemma exists_within_forall {l : List α} (h : ∀ b ∈ l, ∃ n, Within next n b) :
    ∃ n, ∀ b ∈ l, Within next n b := by
  induction l with
  | nil => exact ⟨0, by simp⟩
  | cons b l ih =>
    rw [List.forall_mem_cons] at h
    obtain ⟨n, hn⟩ := h.1
    obtain ⟨m, hm⟩ := ih h.2
    refine ⟨max n m, List.forall_mem_cons.2 ⟨hn.mono (le_max_left n m), ?_⟩⟩
    exact fun b' hb' => (hm b' hb').mono (le_max_right n m)

lemma Within.of_calls (h : Within next n a) (hb : Calls next a b) :
    ∃ m < n, Within next m b := by
  cases n with
  | zero => cases h
  | succ n => exact ⟨n, n.lt_succ_self, h b hb⟩

lemma Within.of_transGen (h : Within next n a) (hb : TransGen (Calls next) a b) :
    ∃ m < n, Within next m b := by
  induction hb with
  | single hstep => exact h.of_calls hstep
  | tail _ hstep ih =>
    obtain ⟨m, hm, hwithin⟩ := ih
    obtain ⟨k, hk, hwithin⟩ := hwithin.of_calls hstep
    exact ⟨k, hk.trans hm, hwithin⟩

/-- A call on a cycle would be ever less deep. -/
lemma Within.not_cycle (h : Within next n a) : ¬ TransGen (Calls next) a a := by
  intro hcycle
  induction n using Nat.strong_induction_on with
  | h n ih =>
    obtain ⟨m, hm, hwithin⟩ := h.of_transGen hcycle
    exact ih m hm hwithin

lemma exists_within_of_acc (h : Acc (flip (Calls next)) a) : ∃ n, Within next n a := by
  induction h with
  | intro a _ ih =>
    obtain ⟨n, hn⟩ := exists_within_forall fun b hb => ih b hb
    exact ⟨n + 1, hn⟩

/-- Along calls that never come back to where they have been, a finite type has an end. -/
lemma acc_of_no_cycle [Finite α]
    (h : ∀ b, ReflTransGen (Calls next) a b → ¬ TransGen (Calls next) b b) :
    Acc (flip (Calls next)) a := by
  let below (c b : α) : Prop := ReflTransGen (Calls next) a b ∧ TransGen (Calls next) b c
  have : IsTrans α below := ⟨fun _ _ _ hzy hyx => ⟨hyx.1, hyx.2.trans hzy.2⟩⟩
  have : Std.Irrefl below := ⟨fun b hb => h b hb.1 hb.2⟩
  have hwf : WellFounded below := Finite.wellFounded_of_trans_of_irrefl below
  have hacc : ∀ b, ReflTransGen (Calls next) a b → Acc (flip (Calls next)) b := by
    intro b
    induction b using hwf.induction with
    | h b ih => exact fun hb => ⟨b, fun c hc => ih c ⟨hb, .single hc⟩ (hb.tail hc)⟩
  exact hacc a .refl

/-- **Finite nests**: over a finite type the nest of a call is finite exactly if no call in it
leads back to itself. -/
theorem exists_within_iff [Finite α] : (∃ n, Within next n a) ↔
    ∀ b, ReflTransGen (Calls next) a b → ¬ TransGen (Calls next) b b := by
  constructor
  · rintro ⟨n, hn⟩ b hb
    rcases reflTransGen_iff_eq_or_transGen.1 hb with rfl | hb
    · exact hn.not_cycle
    · obtain ⟨m, -, hm⟩ := hn.of_transGen hb
      exact hm.not_cycle
  · exact fun h => exists_within_of_acc (acc_of_no_cycle h)

end CrossHostOps.Nesting
