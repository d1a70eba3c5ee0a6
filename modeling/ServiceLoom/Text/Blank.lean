/-!
# Blank characters

Blank means the Unicode property White_Space. Trimming removes blanks only, and the words of a
text are its maximal runs of other characters, so no word is empty.
-/

namespace ServiceLoom.Text

def isBlank (c : Char) : Bool :=
  let n := c.toNat
  (0x9 ≤ n && n ≤ 0xD) || n == 0x20 || n == 0x85 || n == 0xA0 || n == 0x1680 ||
    (0x2000 ≤ n && n ≤ 0x200A) || n == 0x2028 || n == 0x2029 || n == 0x202F || n == 0x205F ||
    n == 0x3000

def trimStart (s : List Char) : List Char := s.dropWhile isBlank

def trimEnd (s : List Char) : List Char := (s.reverse.dropWhile isBlank).reverse

def trim (s : List Char) : List Char := trimEnd (trimStart s)

def isBlankText (s : String) : Bool := s.toList.all isBlank

/-- The pieces between the characters that satisfy `p`, in order; there is always at least one. -/
def cutWhere (p : Char → Bool) : List Char → List (List Char)
  | [] => [[]]
  | c :: cs =>
    if p c then [] :: cutWhere p cs
    else match cutWhere p cs with
      | [] => [[c]]
      | piece :: pieces => (c :: piece) :: pieces

def words (s : List Char) : List (List Char) := (cutWhere isBlank s).filter (!·.isEmpty)

def joinWith (sep : List Char) : List (List Char) → List Char
  | [] => []
  | [piece] => piece
  | piece :: rest => piece ++ sep ++ joinWith sep rest

theorem cutWhere_ne_nil (p : Char → Bool) (s : List Char) : cutWhere p s ≠ [] := by
  cases s with
  | nil => simp [cutWhere]
  | cons c cs =>
    unfold cutWhere
    split
    · simp
    · split <;> simp

theorem ne_nil_of_mem_words {w s : List Char} (h : w ∈ words s) : w ≠ [] := by
  intro hw
  simp [words, hw] at h

end ServiceLoom.Text
