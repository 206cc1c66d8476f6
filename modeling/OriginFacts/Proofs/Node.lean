import OriginFacts.Node
import OriginFacts.Proofs.Text.Decimal

/-!
Names of points read back. In `block[index]` the index stands behind the last opening bracket,
whatever brackets and digits the name of the block has, so a name determines its point. A letter
determines the position that it counts.
-/

namespace OriginFacts

/-! ## Verbose names -/

namespace Node

/-- The characters of a name before its closing bracket, the last one first. -/
def reversed (node : Node) : List Char :=
  node.toList.reverse.tail

/-- The name of the block: what stands before the last opening bracket. -/
def block (node : Node) : String :=
  String.ofList (node.reversed.dropWhile (· != '[')).tail.reverse

/-- The number that a text of digits writes, with or without a sign. -/
def indexOf : List Char → Int
  | '-' :: digits => -(Nat.ofDigitChars 10 digits 0 : Int)
  | digits => Nat.ofDigitChars 10 digits 0

/-- The index of the statement: what stands behind the last opening bracket. -/
def index (node : Node) : Int :=
  indexOf (node.reversed.takeWhile (· != '[')).reverse

theorem indexOf_toDigits (n : Nat) : indexOf (Nat.toDigits 10 n) = n := by
  unfold indexOf
  split
  · next digits hdigits =>
    have hsign : '-' ∈ Nat.toDigits 10 n := by rw [hdigits]; exact List.mem_cons_self ..
    exact absurd hsign (Decimal.notMem_toDigits rfl)
  · rw [Nat.ofDigitChars_ten_toDigits]

theorem indexOf_repr (i : Int) : indexOf i.repr.toList = i := by
  rw [Decimal.toList_repr]
  split
  · rw [indexOf_toDigits]
    omega
  · rw [indexOf, Nat.ofDigitChars_ten_toDigits]
    omega

/-- An index has no bracket, so it ends at the one in front of it. -/
theorem ne_bracket_of_mem_repr (i : Int) : ∀ c ∈ i.repr.toList.reverse, (c != '[') = true := by
  intro c hc
  simp only [bne_iff_ne, ne_eq]
  rintro rfl
  exact Decimal.notMem_repr rfl (by decide) (List.mem_reverse.mp hc)

theorem reversed_verbose (block : String) (i : Int) :
    (verbose block i).reversed = i.repr.toList.reverse ++ '[' :: block.toList.reverse := by
  simp [verbose, reversed, String.toList_append]

@[simp]
theorem block_verbose (name : String) (i : Int) : (verbose name i).block = name := by
  rw [block, reversed_verbose, List.dropWhile_append_of_pos (ne_bracket_of_mem_repr i)]
  simp

@[simp]
theorem index_verbose (name : String) (i : Int) : (verbose name i).index = i := by
  rw [index, reversed_verbose, List.takeWhile_append_of_pos (ne_bracket_of_mem_repr i)]
  simpa using indexOf_repr i

/-- A name has one point: its block and its index can be read off. -/
theorem verbose_eq_iff {b c : String} {i j : Int} : verbose b i = verbose c j ↔ b = c ∧ i = j := by
  constructor
  · intro h
    have hblock := congrArg block h
    have hindex := congrArg index h
    rw [block_verbose, block_verbose] at hblock
    rw [index_verbose, index_verbose] at hindex
    exact ⟨hblock, hindex⟩
  · rintro ⟨rfl, rfl⟩
    rfl

theorem verbose_natCast_eq_iff {b c : String} {i j : Nat} :
    verbose b i = verbose c j ↔ b = c ∧ i = j := by
  rw [verbose_eq_iff, Int.ofNat_inj]

end Node

@[simp]
theorem Program.nodeAt_verbose {p : Program} (block : String) (i : Int) :
    p.nodeAt .verbose block i = .ok (Node.verbose block i) := rfl

/-- Verbose names are unambiguous. Every block and index has one, declared or not, and both can be
read off it. Two of them are equal only for the same block and index, also across programs. -/
theorem Program.verbose_unambiguous (p q : Program) (b c : String) (i j : Int) :
    (∃ node, p.nodeAt .verbose b i = .ok node ∧ Node.block node = b ∧ Node.index node = i) ∧
      (p.nodeAt .verbose b i = q.nodeAt .verbose c j ↔ b = c ∧ i = j) := by
  constructor
  · exact ⟨Node.verbose b i, nodeAt_verbose b i, Node.block_verbose b i, Node.index_verbose b i⟩
  · rw [nodeAt_verbose, nodeAt_verbose, Except.ok.injEq, Node.verbose_eq_iff]

example : Node.block "a[0][-1]" = "a[0]" ∧ Node.index "a[0][-1]" = -1 := by decide

/-! ## Letters -/

theorem Node.alphabet_nodup : Node.alphabet.Nodup := by
  decide

theorem Node.alphabet_getElem?_isSome {k : Nat} : (∃ c, Node.alphabet[k]? = some c) ↔ k < 26 := by
  constructor
  · rintro ⟨c, hc⟩
    exact (List.getElem?_eq_some_iff.mp hc).1
  · intro hk
    exact ⟨_, List.getElem?_eq_getElem hk⟩

namespace Program

variable {p : Program}

theorem nodeAt_eq_error {naming : Naming} {block : String} {i : Int} {fault : Fault}
    (h : p.nodeAt naming block i = .error fault) :
    (∃ position node, fault = .nodeOverflow position node) ∨
      ∃ position, fault = .nodeUnderflow position := by
  unfold nodeAt at h
  split at h
  · cases h
  · dsimp only at h
    split at h
    · cases h
      exact .inl ⟨_, _, rfl⟩
    · split at h
      · cases h
      · cases h
        exact .inr ⟨_, rfl⟩

/-- A point has a letter exactly if its position is one of the alphabet. -/
theorem nodeAt_letters_eq_ok_iff {block : String} {i : Nat} {node : Node} :
    p.nodeAt .letters block i = .ok node ↔
      ∃ c, Node.alphabet[p.statementsBefore block + i]? = some c ∧ node = String.singleton c := by
  have hposition : (p.statementsBefore block : Int) + i = (p.statementsBefore block + i : Nat) := by
    omega
  simp only [nodeAt, hposition]
  generalize p.statementsBefore block + i = k
  split
  · next hlarge =>
    have hnone : Node.alphabet[k]? = none := List.getElem?_eq_none (by omega : 26 ≤ k)
    simp [hnone]
  · have hletter : Node.letter? k = Node.alphabet[k]? := by simp [Node.letter?]
    rw [hletter]
    cases Node.alphabet[k]? with
    | none => simp
    | some c => simp [eq_comm]

theorem exists_nodeAt_letters_iff {block : String} {i : Nat} :
    (∃ node, p.nodeAt .letters block i = .ok node) ↔ p.statementsBefore block + i < 26 := by
  rw [← Node.alphabet_getElem?_isSome]
  constructor
  · rintro ⟨node, hnode⟩
    obtain ⟨c, hc, _⟩ := nodeAt_letters_eq_ok_iff.mp hnode
    exact ⟨c, hc⟩
  · rintro ⟨c, hc⟩
    exact ⟨_, nodeAt_letters_eq_ok_iff.mpr ⟨c, hc, rfl⟩⟩

/-- A letter stands for one position. -/
theorem nodeAt_letters_eq_iff {b c : String} {i j : Nat} {node : Node}
    (hnode : p.nodeAt .letters b i = .ok node) :
    p.nodeAt .letters c j = .ok node ↔
      p.statementsBefore b + i = p.statementsBefore c + j := by
  obtain ⟨letter, hletter, rfl⟩ := nodeAt_letters_eq_ok_iff.mp hnode
  rw [nodeAt_letters_eq_ok_iff]
  constructor
  · rintro ⟨other, hother, hsame⟩
    obtain rfl : letter = other := by simpa [String.singleton_inj] using hsame
    obtain ⟨hlt, _⟩ := List.getElem?_eq_some_iff.mp hletter
    exact (List.getElem?_inj hlt Node.alphabet_nodup).mp (hletter.trans hother.symm)
  · intro heq
    exact ⟨letter, heq ▸ hletter, rfl⟩

end Program

end OriginFacts
