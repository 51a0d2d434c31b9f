import CrossHostOps.Text

/-!
The copy protocol of `types.rs`: the frames of a transfer, the resume hints that travel
with its start request, and what the daemon is asked to copy.
-/

namespace CrossHostOps.Frames

open Text

inductive CopyFrame
  | beginFile (relativePath : Str) (mode size : ℕ) (mtime : ℤ) (startOffset : ℕ)
  | fileData (data : Bytes)
  | endFile
  | beginDirectory (relativePath : Str) (mode : ℕ) (mtime : ℤ)
  | symlink (relativePath target : Str)
  | endOfStream
  deriving DecidableEq

structure ResumeEntry where
  relativePath : Str
  offset : ℕ
  size : ℕ
  mtime : ℤ
  /-- Upload ack only: the hash of the whole remote partial. -/
  partialSha256 : Str

inductive CopyDirection
  | upload
  | download
  deriving DecidableEq

/-- The frame channels of the source are the frame lists passed beside a spec. -/
structure CopySpec where
  direction : CopyDirection
  remotePath : Str
  recursive : Bool
  sourceName : Str
  resume : List ResumeEntry

/-! ### Reading a file -/

/-- The size of the buffers a file is read through, 64 KiB. -/
def chunkSize : ℕ := 65536

/-- What the reads of a file return, one after the other: a read may be short, and only the
end of the file reads as nothing. -/
structure Reads where
  cut : Bytes → List Bytes
  flatten_cut : ∀ b, (cut b).flatten = b
  piece : ∀ b, ∀ c ∈ cut b, c ≠ [] ∧ c.length ≤ chunkSize

/-- Pieces of `n` bytes, at most `fuel` of them. -/
def pieces (n : ℕ) : ℕ → Bytes → List Bytes
  | 0, _ => []
  | fuel + 1, b => if b = [] then [] else b.take n :: pieces n fuel (b.drop n)

lemma flatten_pieces {n : ℕ} (hn : 0 < n) :
    ∀ (fuel : ℕ) (b : Bytes), b.length ≤ fuel → (pieces n fuel b).flatten = b := by
  intro fuel
  induction fuel with
  | zero => intro b hb; simpa [pieces] using (List.length_eq_zero_iff.1 (by omega)).symm
  | succ fuel ih =>
    intro b hb
    by_cases h : b = []
    · simp [pieces, h]
    · have hdrop : (b.drop n).length ≤ fuel := by rw [List.length_drop]; omega
      simp [pieces, h, ih _ hdrop]

lemma mem_pieces {n : ℕ} (hn : 0 < n) (fuel : ℕ) :
    ∀ b, ∀ c ∈ pieces n fuel b, c ≠ [] ∧ c.length ≤ n := by
  induction fuel with
  | zero => simp [pieces]
  | succ fuel ih =>
    intro b c hc
    by_cases h : b = []
    · simp [pieces, h] at hc
    · simp only [pieces, h, if_false, List.mem_cons] at hc
      rcases hc with rfl | hc
      · refine ⟨?_, by rw [List.length_take]; omega⟩
        rw [Ne, List.take_eq_nil_iff]
        exact not_or.2 ⟨by omega, h⟩
      · exact ih _ c hc

def Reads.full : Reads where
  cut b := pieces chunkSize b.length b
  flatten_cut b := flatten_pieces (by decide) _ b le_rfl
  piece b := mem_pieces (by decide) _ b

/-- The bytes the `FileData` frames of a stream carry. -/
def payload : List CopyFrame → Bytes
  | [] => []
  | .fileData d :: fs => d ++ payload fs
  | _ :: fs => payload fs

end CrossHostOps.Frames
