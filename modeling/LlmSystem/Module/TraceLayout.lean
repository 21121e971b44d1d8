import LlmSystem.Lib.Streams
import LlmSystem.Module.ExpertCounts
import Mathlib.Data.List.TakeWhile
import Mathlib.Tactic.Positivity

/-!
How `initExpertList` stores a trace of expert choices. The experts of a prompt come layer by layer
and are written token by token; those of the generated tokens are appended as they come.
-/
namespace LlmSystem

open Runs Streams

/-- `expert_list.resize(n)`. -/
def resizeExperts (n : ℕ) (l : List (List ℤ)) : List (List ℤ) :=
  l.take n ++ List.replicate (n - l.length) []

/-- The variables of `initExpertList`. -/
structure TraceReader where
  trace : ExpertTrace := { realData := true }
  /-- `expert_list` of each entry of `sequences_info`. -/
  expertLists : List (List (List ℤ)) := []
  curSeq : SequenceInfo := ⟨0, 0⟩
  /-- `expert_list` of `cur_seq`. -/
  expertList : List (List ℤ) := []
  processSum : Bool := false
  idx : ℕ := 0

def FitsInt (n : ℤ) : Prop := -2 ^ 31 ≤ n ∧ n < 2 ^ 31

instance (n : ℤ) : Decidable (FitsInt n) := inferInstanceAs (Decidable (_ ∧ _))

/-- `iss >> n`, which fails on anything but an `int`. -/
def extractInt (text : List Char) : Option ℤ :=
  match readSigned (skip text) with
  | none => none
  | some (n, _) => if FitsInt n then some n else none

/-- What `iss >> n` leaves in `n`: nothing is written at the end of the line. -/
def storeInt (old : ℤ) (text : List Char) : ℤ :=
  match readSigned (skip text) with
  | none => if skip text = [] then old else 0
  | some (n, _) => max (-2 ^ 31) (min n (2 ^ 31 - 1))

def stoi (text : List Char) : Except String ℤ :=
  match readSigned (skip text) with
  | none => .error "std::invalid_argument"
  | some (n, _) => if FitsInt n then .ok n else .error "std::out_of_range"

namespace TraceReader

/-- A line with two experts. -/
def storeExperts (numLayer : ℤ) (r : TraceReader) (experts : List ℤ) :
    Except String TraceReader :=
  if r.processSum then
    if r.curSeq.lin = 0 then .error "division by zero"
    else
      let tokenId := (r.idx : ℤ).tmod r.curSeq.lin
      let layerId := (r.idx : ℤ).tdiv r.curSeq.lin
      let index := tokenId * numLayer + layerId
      if 0 ≤ index ∧ index < r.expertList.length then
        .ok { r with expertList := r.expertList.set index.toNat experts, idx := r.idx + 1 }
      else .error "std::out_of_range"
  else .ok { r with expertList := r.expertList ++ [experts] }

/-- The body of the loop over the lines of a trace with experts. -/
def readLine (numLayer : ℤ) (r : TraceReader) (line : List Char) : Except String TraceReader :=
  let (key, rest) := readWord line
  if key = "Lin".toList then
    .ok { r with curSeq := { r.curSeq with lin := storeInt r.curSeq.lin rest } }
  else if key = "Lout".toList then
    let curSeq := { r.curSeq with lout := storeInt r.curSeq.lout rest }
    .ok { r with
      trace := { r.trace with sequencesInfo := r.trace.sequencesInfo ++ [curSeq] }
      expertLists := r.expertLists ++ [r.expertList]
      curSeq := ⟨0, 0⟩
      expertList := [] }
  else if key = "Sum".toList then
    if 0 ≤ r.curSeq.lin * numLayer then
      .ok { r with
        expertList := resizeExperts (r.curSeq.lin * numLayer).toNat r.expertList
        processSum := true
        idx := 0 }
    else .error "std::length_error"
  else if key = "Gen".toList then .ok { r with processSum := false }
  else
    match extractInt rest with
    | some top2 => do
      let top1 ← stoi key
      r.storeExperts numLayer [top1, top2]
    | none =>
      if key.take 4 = "seq_".toList then
        .ok { r with trace := { r.trace with totalSeqNum := r.trace.totalSeqNum + 1 } }
      else .ok r

end TraceReader

/-- `initExpertList` on the lines of a file that it can open. -/
def Scheduler.initExpertList (m : ModelConfig) (lines : List (List Char)) :
    Except String TraceReader :=
  lines.foldlM (TraceReader.readLine (BatchedSequence.numLayer m)) {}

/-! ### Traces -/

/-- The experts of a sequence: for the prompt by layer and token, then for each generated token by
layer. -/
structure SequenceTrace where
  lin : ℕ
  lout : ℤ
  sum : ℕ → ℕ → ℤ × ℤ
  gen : List (ℕ → ℤ × ℤ)

namespace SequenceTrace
variable (t : SequenceTrace)

/-- The pair that the trace gives for a token in a layer. -/
def experts (token layer : ℕ) : ℤ × ℤ :=
  if token < t.lin then t.sum layer token
  else t.gen.getD (token - t.lin) (fun _ => (0, 0)) layer

/-- Layer by layer. -/
def sumPairs (numLayer : ℕ) : List (ℤ × ℤ) :=
  (List.range numLayer).flatMap fun layer => (List.range t.lin).map fun token => t.sum layer token

/-- Token by token. -/
def genPairs (numLayer : ℕ) : List (ℤ × ℤ) :=
  t.gen.flatMap fun pairs => (List.range numLayer).map pairs

end SequenceTrace

def IntWord (word : List Char) (n : ℤ) : Prop := Numeral word n ∧ FitsInt n

/-- A key with a number after it. -/
def KeyLine (key : String) (n : ℤ) (line : List Char) : Prop :=
  ∃ word words, Words line (key.toList :: word :: words) ∧ IntWord word n

/-- A key; what follows is not read. -/
def MarkLine (key : String) (line : List Char) : Prop := ∃ words, Words line (key.toList :: words)

def PairLine (pair : ℤ × ℤ) (line : List Char) : Prop :=
  ∃ word₁ word₂, Words line [word₁, word₂] ∧ IntWord word₁ pair.1 ∧ IntWord word₂ pair.2

/-- The number of a sequence, which is only counted. -/
def HeaderLine (line : List Char) : Prop :=
  ∃ word, Words line [word] ∧ word.take 4 = "seq_".toList

/-- The lines of a sequence. -/
inductive SequenceLines (numLayer : ℕ) (t : SequenceTrace) : List (List Char) → Prop
  | mk {headers sumData genData : List (List Char)} {linLine sumLine genLine loutLine : List Char}
      (hheaders : ∀ line ∈ headers, HeaderLine line) (hlin : KeyLine "Lin" t.lin linLine)
      (hsum : MarkLine "Sum" sumLine)
      (hsumData : List.Forall₂ PairLine (t.sumPairs numLayer) sumData)
      (hgen : MarkLine "Gen" genLine)
      (hgenData : List.Forall₂ PairLine (t.genPairs numLayer) genData)
      (hlout : KeyLine "Lout" t.lout loutLine) :
      SequenceLines numLayer t
        (headers ++ (linLine :: sumLine :: (sumData ++ (genLine :: (genData ++ [loutLine])))))

/-- A file of sequences. -/
inductive TraceLines (numLayer : ℕ) : List SequenceTrace → List (List Char) → Prop
  | nil : TraceLines numLayer [] []
  | cons {t : SequenceTrace} {ts : List SequenceTrace} {lines rest : List (List Char)}
      (h : SequenceLines numLayer t lines) (hrest : TraceLines numLayer ts rest) :
      TraceLines numLayer (t :: ts) (lines ++ rest)

/-! ### What a line does -/

theorem extractInt_word {text word : List Char} {words : List (List Char)} {n : ℤ}
    (h : Words text (word :: words)) (hn : IntWord word n) : extractInt text = some n := by
  obtain ⟨rest, hread, -⟩ := h.readSigned hn.1
  unfold extractInt
  rw [hread]
  exact if_pos hn.2

theorem storeInt_word {text word : List Char} {words : List (List Char)} {n : ℤ}
    (h : Words text (word :: words)) (hn : IntWord word n) (old : ℤ) : storeInt old text = n := by
  obtain ⟨rest, hread, -⟩ := h.readSigned hn.1
  obtain ⟨hlow, hhigh⟩ := hn.2
  unfold storeInt
  rw [hread]
  dsimp only
  omega

theorem stoi_word {text word : List Char} {words : List (List Char)} {n : ℤ}
    (h : Words text (word :: words)) (hn : IntWord word n) : stoi word = .ok n := by
  unfold stoi
  rw [h.skip_word, hn.1.readSigned_self]
  exact if_pos hn.2

/-- A number is not one of the keys. -/
theorem IntWord.ne_key {word : List Char} {n : ℤ} (h : IntWord word n) :
    word ≠ "Lin".toList ∧ word ≠ "Lout".toList ∧ word ≠ "Sum".toList ∧ word ≠ "Gen".toList := by
  have hhead := fun c => @Numeral.head word n h.1 c
  refine ⟨?_, ?_, ?_, ?_⟩
  · rintro rfl
    exact absurd (hhead 'L' rfl) (by decide)
  · rintro rfl
    exact absurd (hhead 'L' rfl) (by decide)
  · rintro rfl
    exact absurd (hhead 'S' rfl) (by decide)
  · rintro rfl
    exact absurd (hhead 'G' rfl) (by decide)

namespace TraceReader
variable {numLayer : ℤ}

theorem readLine_lin {n : ℤ} {line : List Char} (h : KeyLine "Lin" n line) (r : TraceReader) :
    r.readLine numLayer line = .ok { r with curSeq := { r.curSeq with lin := n } } := by
  obtain ⟨word, words, hwords, hn⟩ := h
  obtain ⟨rest, hread, hrest⟩ := hwords.readWord
  unfold readLine
  rw [hread]
  dsimp only
  rw [if_pos rfl, storeInt_word hrest hn]

theorem readLine_lout {n : ℤ} {line : List Char} (h : KeyLine "Lout" n line) (r : TraceReader) :
    r.readLine numLayer line = .ok { r with
      trace := { r.trace with
        sequencesInfo := r.trace.sequencesInfo ++ [{ r.curSeq with lout := n }] }
      expertLists := r.expertLists ++ [r.expertList]
      curSeq := ⟨0, 0⟩
      expertList := [] } := by
  obtain ⟨word, words, hwords, hn⟩ := h
  obtain ⟨rest, hread, hrest⟩ := hwords.readWord
  unfold readLine
  rw [hread]
  dsimp only
  rw [if_neg (by decide), if_pos rfl, storeInt_word hrest hn]

theorem readLine_sum {line : List Char} (h : MarkLine "Sum" line) {r : TraceReader}
    (hlin : 0 ≤ r.curSeq.lin * numLayer) :
    r.readLine numLayer line = .ok { r with
      expertList := resizeExperts (r.curSeq.lin * numLayer).toNat r.expertList
      processSum := true
      idx := 0 } := by
  obtain ⟨words, hwords⟩ := h
  obtain ⟨rest, hread, -⟩ := hwords.readWord
  unfold readLine
  rw [hread]
  dsimp only
  rw [if_neg (by decide), if_neg (by decide), if_pos rfl, if_pos hlin]

theorem readLine_gen {line : List Char} (h : MarkLine "Gen" line) (r : TraceReader) :
    r.readLine numLayer line = .ok { r with processSum := false } := by
  obtain ⟨words, hwords⟩ := h
  obtain ⟨rest, hread, -⟩ := hwords.readWord
  unfold readLine
  rw [hread]
  dsimp only
  rw [if_neg (by decide), if_neg (by decide), if_neg (by decide), if_pos rfl]

theorem readLine_pair {pair : ℤ × ℤ} {line : List Char} (h : PairLine pair line)
    (r : TraceReader) :
    r.readLine numLayer line = r.storeExperts numLayer [pair.1, pair.2] := by
  obtain ⟨word₁, word₂, hwords, hn₁, hn₂⟩ := h
  obtain ⟨rest, hread, hrest⟩ := hwords.readWord
  obtain ⟨hlin, hlout, hsum, hgen⟩ := hn₁.ne_key
  unfold readLine
  rw [hread]
  dsimp only
  rw [if_neg hlin, if_neg hlout, if_neg hsum, if_neg hgen, extractInt_word hrest hn₂]
  dsimp only
  rw [stoi_word hwords hn₁]
  rfl

/-- Only the number of sequences changes. -/
theorem readLine_header {line : List Char} (h : HeaderLine line) (r : TraceReader) :
    ∃ totalSeqNum, r.readLine numLayer line
      = .ok { r with trace := { r.trace with totalSeqNum } } := by
  obtain ⟨word, hwords, hword⟩ := h
  obtain ⟨rest, hread, hrest⟩ := hwords.readWord
  have hblank : extractInt rest = none := by
    cases hrest with
    | blank hrest =>
      have hskip : skip rest = [] := List.dropWhile_eq_nil_iff.mpr hrest
      unfold extractInt
      rw [hskip]
      rfl
  have hne (key : List Char) (hkey : key.take 4 ≠ "seq_".toList) : word ≠ key := by
    rintro rfl
    exact hkey hword
  refine ⟨r.trace.totalSeqNum + 1, ?_⟩
  unfold readLine
  rw [hread]
  dsimp only
  rw [if_neg (hne _ (by decide)), if_neg (hne _ (by decide)), if_neg (hne _ (by decide)),
    if_neg (hne _ (by decide)), hblank]
  exact if_pos hword

end TraceReader
/-! ### The transposed prompt -/

/-- Values written one after the other, the `i`-th of them at `pos i`. -/
def writeAt {α : Type*} (pos : ℕ → ℕ) : ℕ → List α → List α → List α
  | _, [], l => l
  | i, x :: xs, l => writeAt pos (i + 1) xs (l.set (pos i) x)

section WriteAt
variable {α : Type*} {pos : ℕ → ℕ}

@[simp] theorem length_writeAt (i : ℕ) (xs l : List α) :
    (writeAt pos i xs l).length = l.length := by
  induction xs generalizing i l with
  | nil => rfl
  | cons x xs ih =>
    unfold writeAt
    rw [ih, List.length_set]

theorem getElem?_writeAt_of_ne {i q : ℕ} {xs : List α} (h : ∀ k < xs.length, pos (i + k) ≠ q)
    (l : List α) : (writeAt pos i xs l)[q]? = l[q]? := by
  induction xs generalizing i l with
  | nil => rfl
  | cons x xs ih =>
    unfold writeAt
    have hfirst : pos i ≠ q := h 0 (Nat.succ_pos _)
    have hrest : ∀ k < xs.length, pos (i + 1 + k) ≠ q := by
      intro k hk
      have hnext := h (k + 1) (Nat.succ_lt_succ hk)
      rwa [show i + (k + 1) = i + 1 + k by omega] at hnext
    rw [ih hrest, List.getElem?_set_ne hfirst]

/-- Where no two values are written to one place, each is found at its place. -/
theorem getElem?_writeAt {i : ℕ} {xs l : List α}
    (hinj : ∀ j < xs.length, ∀ k < xs.length, pos (i + j) = pos (i + k) → j = k)
    (hbound : ∀ k < xs.length, pos (i + k) < l.length) {k : ℕ} (hk : k < xs.length) :
    (writeAt pos i xs l)[pos (i + k)]? = xs[k]? := by
  induction xs generalizing i l k with
  | nil => simp at hk
  | cons x xs ih =>
    have hshift (j : ℕ) : i + 1 + j = i + (j + 1) := by omega
    unfold writeAt
    cases k with
    | zero =>
      have hlater : ∀ j < xs.length, pos (i + 1 + j) ≠ pos (i + 0) := by
        intro j hj heq
        rw [hshift] at heq
        exact absurd (hinj (j + 1) (Nat.succ_lt_succ hj) 0 (Nat.succ_pos _) heq) (by omega)
      have hfirst : pos i < l.length := hbound 0 (Nat.succ_pos _)
      rw [getElem?_writeAt_of_ne hlater]
      simp [hfirst]
    | succ k =>
      rw [← hshift k, List.getElem?_cons_succ]
      apply ih
      · intro j hj j' hj' heq
        rw [hshift, hshift] at heq
        exact Nat.succ.inj (hinj (j + 1) (Nat.succ_lt_succ hj) (j' + 1) (Nat.succ_lt_succ hj') heq)
      · intro j hj
        rw [hshift, List.length_set]
        exact hbound (j + 1) (Nat.succ_lt_succ hj)
      · exact Nat.lt_of_succ_lt_succ hk

/-- An entry of a table that is written row by row. -/
theorem getElem?_flatMap_range {n m : ℕ} (f : ℕ → ℕ → α) {a b : ℕ} (ha : a < n) (hb : b < m) :
    ((List.range n).flatMap fun i => (List.range m).map (f i))[a * m + b]? = some (f a b) := by
  have hlength (n : ℕ) :
      ((List.range n).flatMap fun i => (List.range m).map (f i)).length = n * m := by
    simp [List.length_flatMap]
  induction n with
  | zero => omega
  | succ n ih =>
    rw [List.range_succ, List.flatMap_append]
    by_cases hlast : a < n
    · have hin : a * m + b < n * m := by
        have hnext := Nat.mul_le_mul_right m (Nat.succ_le_of_lt hlast)
        rw [Nat.succ_mul] at hnext
        omega
      rw [List.getElem?_append_left (by rwa [hlength]), ih hlast]
    · obtain rfl : a = n := by omega
      rw [List.getElem?_append_right (by rw [hlength]; omega), hlength, Nat.add_sub_cancel_left]
      simp [hb]

end WriteAt

namespace SequenceTrace
variable {t : SequenceTrace} {numLayer : ℕ}

def row (pair : ℤ × ℤ) : List ℤ := [pair.1, pair.2]

/-- Where the experts of a prompt are written to. -/
def place (t : SequenceTrace) (numLayer i : ℕ) : ℕ := i % t.lin * numLayer + i / t.lin

/-- The `expert_list` of the sequence. -/
def layout (t : SequenceTrace) (numLayer : ℕ) : List (List ℤ) :=
  writeAt (t.place numLayer) 0 ((t.sumPairs numLayer).map row)
      (List.replicate (t.lin * numLayer) [])
    ++ (t.genPairs numLayer).map row

theorem length_sumPairs : (t.sumPairs numLayer).length = numLayer * t.lin := by
  simp [sumPairs, List.length_flatMap]

theorem place_mul_add {layer token : ℕ} (htoken : token < t.lin) :
    t.place numLayer (layer * t.lin + token) = token * numLayer + layer := by
  unfold place
  rw [Nat.mul_comm layer, Nat.mul_add_mod, Nat.mod_eq_of_lt htoken, Nat.mul_add_div (by omega),
    Nat.div_eq_of_lt htoken, Nat.add_zero]

theorem div_lt_layers {i : ℕ} (hi : i < numLayer * t.lin) : i / t.lin < numLayer :=
  Nat.div_lt_of_lt_mul (by rwa [Nat.mul_comm])

theorem place_lt {i : ℕ} (hi : i < numLayer * t.lin) :
    t.place numLayer i < t.lin * numLayer := by
  have hlin : 0 < t.lin := Nat.pos_of_mul_pos_left (Nat.zero_lt_of_lt hi)
  have hnext := Nat.mul_le_mul_right numLayer (Nat.succ_le_of_lt (Nat.mod_lt i hlin))
  have hlayer := div_lt_layers hi
  rw [Nat.succ_mul] at hnext
  unfold place
  omega

/-- The layer is the last digit of a place and the token the one before. -/
theorem place_injective {i j : ℕ} (hi : i < numLayer * t.lin) (hj : j < numLayer * t.lin)
    (h : t.place numLayer i = t.place numLayer j) : i = j := by
  have hlayers : 0 < numLayer := Nat.zero_lt_of_lt (div_lt_layers hi)
  have htoken {k : ℕ} (hk : k < numLayer * t.lin) :
      t.place numLayer k / numLayer = k % t.lin := by
    unfold place
    rw [Nat.mul_comm, Nat.mul_add_div hlayers, Nat.div_eq_of_lt (div_lt_layers hk), Nat.add_zero]
  have hlayer {k : ℕ} (hk : k < numLayer * t.lin) :
      t.place numLayer k % numLayer = k / t.lin := by
    unfold place
    rw [Nat.mul_comm, Nat.mul_add_mod, Nat.mod_eq_of_lt (div_lt_layers hk)]
  rw [← Nat.div_add_mod i t.lin, ← Nat.div_add_mod j t.lin, ← htoken hi, ← htoken hj, ← hlayer hi,
    ← hlayer hj, h]

/-- Each token of the sequence has its experts of a layer where `update_expert` looks. -/
theorem getElem?_layout {token layer : ℕ} (htoken : token < t.lin + t.gen.length)
    (hlayer : layer < numLayer) :
    (t.layout numLayer)[token * numLayer + layer]? = some (row (t.experts token layer)) := by
  have hlength : (writeAt (t.place numLayer) 0 ((t.sumPairs numLayer).map row)
      (List.replicate (t.lin * numLayer) [])).length = t.lin * numLayer := by simp
  unfold layout experts
  by_cases hprompt : token < t.lin
  · have hindex : layer * t.lin + token < numLayer * t.lin := by
      have hnext := Nat.mul_le_mul_right t.lin (Nat.succ_le_of_lt hlayer)
      rw [Nat.succ_mul] at hnext
      omega
    have hplace : t.place numLayer (0 + (layer * t.lin + token)) = token * numLayer + layer := by
      rw [Nat.zero_add, place_mul_add hprompt]
    have hin : token * numLayer + layer < t.lin * numLayer := by
      rw [← place_mul_add hprompt]
      exact place_lt hindex
    rw [List.getElem?_append_left (by rwa [hlength]), ← hplace, if_pos hprompt, getElem?_writeAt]
    · rw [List.getElem?_map]
      unfold sumPairs
      rw [getElem?_flatMap_range _ hlayer hprompt]
      rfl
    · intro j hj k hk heq
      rw [List.length_map, length_sumPairs] at hj hk
      rw [Nat.zero_add, Nat.zero_add] at heq
      exact place_injective hj hk heq
    · intro k hk
      rw [List.length_map, length_sumPairs] at hk
      rw [Nat.zero_add, List.length_replicate]
      exact place_lt hk
    · rwa [List.length_map, length_sumPairs]
  · -- The generated tokens follow those of the prompt.
    obtain ⟨g, rfl⟩ := Nat.exists_eq_add_of_le (not_lt.mp hprompt)
    have hg : g < t.gen.length := by omega
    have hoffset : (t.lin + g) * numLayer + layer - t.lin * numLayer = g * numLayer + layer := by
      rw [Nat.add_mul]
      omega
    have hpast : t.lin * numLayer ≤ (t.lin + g) * numLayer + layer := by
      rw [Nat.add_mul]
      omega
    have hgen : t.genPairs numLayer
        = (List.range t.gen.length).flatMap fun i =>
          (List.range numLayer).map (t.gen.getD i fun _ => (0, 0)) := by
      have hself : (List.range t.gen.length).map (fun i => t.gen.getD i fun _ => (0, 0))
          = t.gen := by
        apply List.ext_getElem (by simp)
        intro i _ hi
        simp [hi]
      unfold genPairs
      conv_lhs => rw [← hself]
      rw [List.flatMap_map]
    rw [List.getElem?_append_right (by rwa [hlength]), hlength, hoffset, if_neg hprompt,
      Nat.add_sub_cancel_left, List.getElem?_map, hgen, getElem?_flatMap_range _ hg hlayer]
    rfl

end SequenceTrace
/-! ### What a sequence does -/

section Loops
variable {α β : Type} {f : β → α → Except String β} {b b' : β} {l l' : List α}

theorem foldlM_cons_ok {a : α} (h : f b a = .ok b') :
    (a :: l).foldlM f b = l.foldlM f b' := by
  rw [List.foldlM_cons, h]
  rfl

theorem foldlM_append_ok (h : l.foldlM f b = .ok b') :
    (l ++ l').foldlM f b = l'.foldlM f b' := by
  rw [List.foldlM_append, h]
  rfl

end Loops

namespace TraceReader
variable {numLayer : ℕ} {t : SequenceTrace}

theorem run_headers {numLayer : ℤ} {headers : List (List Char)}
    (h : ∀ line ∈ headers, HeaderLine line) (r : TraceReader) :
    ∃ totalSeqNum, headers.foldlM (readLine numLayer) r
      = .ok { r with trace := { r.trace with totalSeqNum } } := by
  induction headers generalizing r with
  | nil => exact ⟨r.trace.totalSeqNum, rfl⟩
  | cons line headers ih =>
    obtain ⟨hline, hrest⟩ := List.forall_mem_cons.mp h
    obtain ⟨n, hone⟩ := @readLine_header numLayer line hline r
    obtain ⟨n', hall⟩ := ih hrest { r with trace := { r.trace with totalSeqNum := n } }
    exact ⟨n', (foldlM_cons_ok hone).trans hall⟩

/-- The experts of the next token of the prompt, in the layer that is being read. -/
theorem storeExperts_prompt {r : TraceReader} (hsum : r.processSum = true)
    (hlin : r.curSeq.lin = t.lin) (hlength : r.expertList.length = t.lin * numLayer)
    (hidx : r.idx < numLayer * t.lin) (experts : List ℤ) :
    r.storeExperts numLayer experts = .ok { r with
      expertList := r.expertList.set (t.place numLayer r.idx) experts
      idx := r.idx + 1 } := by
  have hpos : (t.lin : ℤ) ≠ 0 := by
    have hlin : 0 < t.lin := Nat.pos_of_mul_pos_left (Nat.zero_lt_of_lt hidx)
    omega
  have hindex : (r.idx : ℤ).tmod t.lin * numLayer + (r.idx : ℤ).tdiv t.lin
      = (t.place numLayer r.idx : ℕ) := by
    rw [← Int.ofNat_tmod, ← Int.ofNat_tdiv]
    unfold SequenceTrace.place
    push_cast
    rfl
  have hplace := SequenceTrace.place_lt hidx
  unfold storeExperts
  dsimp only
  rw [if_pos hsum, hlin, if_neg hpos, hindex, hlength]
  rw [if_pos ⟨Int.natCast_nonneg _, Int.ofNat_lt.mpr hplace⟩, Int.toNat_natCast]

theorem run_prompt {pairs : List (ℤ × ℤ)} {lines : List (List Char)}
    (h : List.Forall₂ PairLine pairs lines) {r : TraceReader} (hsum : r.processSum = true)
    (hlin : r.curSeq.lin = t.lin) (hlength : r.expertList.length = t.lin * numLayer)
    (hidx : r.idx + pairs.length ≤ numLayer * t.lin) :
    lines.foldlM (readLine numLayer) r = .ok { r with
      expertList := writeAt (t.place numLayer) r.idx (pairs.map SequenceTrace.row) r.expertList
      idx := r.idx + pairs.length } := by
  induction h generalizing r with
  | nil => rfl
  | @cons pair line pairs lines hline _ ih =>
    rw [List.length_cons] at hidx
    have hstore := storeExperts_prompt hsum hlin hlength (by omega) [pair.1, pair.2]
    rw [foldlM_cons_ok ((readLine_pair hline r).trans hstore)]
    rw [@ih { r with
      expertList := r.expertList.set (t.place numLayer r.idx) [pair.1, pair.2]
      idx := r.idx + 1 } hsum hlin]
    · rw [List.length_cons, Nat.add_assoc, Nat.add_comm 1]
      rfl
    · rwa [List.length_set]
    · dsimp only
      omega

theorem run_generated {numLayer : ℤ} {pairs : List (ℤ × ℤ)} {lines : List (List Char)}
    (h : List.Forall₂ PairLine pairs lines) {r : TraceReader} (hgen : r.processSum = false) :
    lines.foldlM (readLine numLayer) r = .ok { r with
      expertList := r.expertList ++ pairs.map SequenceTrace.row } := by
  induction h generalizing r with
  | nil =>
    rw [List.map_nil, List.append_nil]
    rfl
  | @cons pair line pairs lines hline _ ih =>
    have hstore : r.storeExperts numLayer [pair.1, pair.2]
        = .ok { r with expertList := r.expertList ++ [SequenceTrace.row pair] } := by
      unfold storeExperts
      rw [if_neg (by simp [hgen])]
      rfl
    rw [foldlM_cons_ok ((readLine_pair hline r).trans hstore)]
    rw [@ih { r with expertList := r.expertList ++ [SequenceTrace.row pair] } hgen]
    rw [List.map_cons, List.append_assoc, List.singleton_append]

/-- A sequence that starts with nothing read adds its lengths and its layout. -/
theorem run_sequence {lines : List (List Char)} (h : SequenceLines numLayer t lines)
    {r : TraceReader} (hr : r.expertList = []) :
    ∃ r', lines.foldlM (readLine numLayer) r = .ok r' ∧ r'.expertList = [] ∧
      r'.trace.sequencesInfo = r.trace.sequencesInfo ++ [⟨t.lin, t.lout⟩] ∧
      r'.expertLists = r.expertLists ++ [t.layout numLayer] := by
  obtain ⟨hheaders, hlin, hsum, hsumData, hgen, hgenData, hlout⟩ := h
  obtain ⟨totalSeqNum, hrun⟩ := @run_headers numLayer _ hheaders r
  rw [foldlM_append_ok hrun, foldlM_cons_ok (readLine_lin hlin _),
    foldlM_cons_ok (readLine_sum hsum (by dsimp only; positivity))]
  have hnat : ((t.lin : ℤ) * numLayer).toNat = t.lin * numLayer := by
    rw [← Int.natCast_mul, Int.toNat_natCast]
  have hresize : resizeExperts (t.lin * numLayer) [] = List.replicate (t.lin * numLayer) [] := by
    simp [resizeExperts]
  dsimp only
  rw [hnat, hr, hresize]
  have hprompt := @run_prompt numLayer t _ _ hsumData { r with
    trace := { r.trace with totalSeqNum }
    curSeq := { r.curSeq with lin := t.lin }
    expertList := List.replicate (t.lin * numLayer) []
    processSum := true
    idx := 0 } rfl rfl List.length_replicate
    (by rw [SequenceTrace.length_sumPairs]; exact (Nat.zero_add _).le)
  rw [foldlM_append_ok hprompt, foldlM_cons_ok (readLine_gen hgen _),
    foldlM_append_ok (run_generated hgenData rfl), foldlM_cons_ok (readLine_lout hlout _)]
  exact ⟨_, rfl, rfl, rfl, rfl⟩

end TraceReader

/-- The sequences of a file, one after the other. -/
theorem run_trace {numLayer : ℕ} {ts : List SequenceTrace} {lines : List (List Char)}
    (h : TraceLines numLayer ts lines) {r : TraceReader} (hr : r.expertList = []) :
    ∃ r', lines.foldlM (TraceReader.readLine numLayer) r = .ok r' ∧
      r'.trace.sequencesInfo = r.trace.sequencesInfo ++ ts.map (fun t => ⟨t.lin, t.lout⟩) ∧
      r'.expertLists = r.expertLists ++ ts.map (·.layout numLayer) := by
  induction h generalizing r with
  | nil => exact ⟨r, rfl, (List.append_nil _).symm, (List.append_nil _).symm⟩
  | cons h _ ih =>
    obtain ⟨r₁, hrun, hr₁, hinfo, hlists⟩ := TraceReader.run_sequence h hr
    obtain ⟨r₂, hrest, hinfo', hlists'⟩ := ih hr₁
    refine ⟨r₂, (foldlM_append_ok hrun).trans hrest, ?_, ?_⟩
    · rw [hinfo', hinfo, List.append_assoc, List.map_cons, List.singleton_append]
    · rw [hlists', hlists, List.append_assoc, List.map_cons, List.singleton_append]

namespace BatchedSequence

/-- Both experts of a row, or the first of them. -/
theorem traceExperts_row {src : ExpertSource} {seqId index : ℕ} {rows : List (List ℤ)}
    {pair : ℤ × ℤ} (hrows : src.expertList[seqId]? = some rows)
    (hrow : rows[index]? = some (SequenceTrace.row pair)) {topK : ℕ} (htop : topK ≤ 2) :
    traceExperts src seqId index topK = some ((SequenceTrace.row pair).take topK) := by
  have hentry (k : ℕ) : (if 0 ≤ (seqId : ℤ) ∧ 0 ≤ (index : ℤ) then do
      let rows ← src.expertList[(seqId : ℤ).toNat]?
      let row ← rows[(index : ℤ).toNat]?
      row[k]?
    else none) = (SequenceTrace.row pair)[k]? := by
    rw [if_pos ⟨Int.natCast_nonneg _, Int.natCast_nonneg _⟩, Int.toNat_natCast, Int.toNat_natCast,
      hrows]
    show (rows[index]?.bind fun row => row[k]?) = _
    rw [hrow]
    rfl
  unfold traceExperts
  rw [Int.toNat_natCast topK]
  simp only [hentry]
  obtain rfl | rfl | rfl : topK = 0 ∨ topK = 1 ∨ topK = 2 := by omega
  · rfl
  · rfl
  · rfl

end BatchedSequence

/-- A well-formed trace is stored where `update_expert` reads it: each token of each sequence has
the pair that the trace gives for it in each layer. -/
theorem initExpertList_layout {m : ModelConfig} {numLayer : ℕ}
    (hlayers : BatchedSequence.numLayer m = numLayer) {ts : List SequenceTrace}
    {lines : List (List Char)} (h : TraceLines numLayer ts lines) :
    ∃ r, Scheduler.initExpertList m lines = .ok r ∧
      r.trace.sequencesInfo = ts.map (fun t => ⟨t.lin, t.lout⟩) ∧
      ∀ (seqId : ℕ) (t : SequenceTrace), ts[seqId]? = some t →
        ∀ token < t.lin + t.gen.length, ∀ layer < numLayer, ∀ topK ≤ 2,
          BatchedSequence.traceExperts { expertList := r.expertLists } seqId
              ((token : ℤ) * BatchedSequence.numLayer m + layer) (topK : ℕ)
            = some ((SequenceTrace.row (t.experts token layer)).take topK) := by
  obtain ⟨r, hrun, hinfo, hlists⟩ := @run_trace numLayer ts lines h {} rfl
  refine ⟨r, ?_, hinfo, ?_⟩
  · unfold Scheduler.initExpertList
    rw [hlayers]
    exact hrun
  · intro seqId t ht token htoken layer hlayer topK htop
    have hrows : ({ expertList := r.expertLists } : ExpertSource).expertList[seqId]?
        = some (t.layout numLayer) := by
      rw [hlists]
      simp [ht]
    have hindex : (token : ℤ) * numLayer + layer = (token * numLayer + layer : ℕ) := by
      push_cast
      rfl
    rw [hlayers, hindex]
    exact BatchedSequence.traceExperts_row hrows (SequenceTrace.getElem?_layout htoken hlayer) htop

/-! ### A trace -/

theorem unspaced {word : List Char} (h : word.all (fun c => !isSpace c) = true) :
    ∀ c ∈ word, isSpace c = false := by
  simpa using h

theorem words_one {word : List Char} (hword : ∀ c ∈ word, isSpace c = false) (hne : word ≠ []) :
    Words word [word] := by
  have h := @Words.word [] word [] [] (by simp) hword hne (by simp) (.blank (by simp))
  simpa using h

theorem words_two {word₁ word₂ : List Char} (h₁ : ∀ c ∈ word₁, isSpace c = false)
    (hne₁ : word₁ ≠ []) (h₂ : ∀ c ∈ word₂, isSpace c = false) (hne₂ : word₂ ≠ []) :
    Words (word₁ ++ ' ' :: word₂) [word₁, word₂] := by
  have hblank : ∀ c ∈ [' '], isSpace c = true := List.forall_mem_singleton.mpr rfl
  have hsecond := @Words.word [' '] word₂ [] [] hblank h₂ hne₂ (by simp) (.blank (by simp))
  have hspace : ∀ c, (' ' :: word₂).head? = some c → isSpace c = true := by
    intro c hc
    rw [← Option.some.inj hc]
    rfl
  rw [List.append_nil, List.singleton_append] at hsecond
  exact @Words.word [] word₁ (' ' :: word₂) _ (by simp) h₁ hne₁ hspace hsecond

theorem isSpace_digits {word : List Char} (h : ∀ c ∈ word, c.isDigit = true) :
    ∀ c ∈ word, isSpace c = false := by
  intro c hc
  by_contra hspace
  have hdigit := isDigit_of_space (Bool.eq_true_of_not_eq_false hspace)
  rw [h c hc] at hdigit
  exact Bool.noConfusion hdigit

theorem pairLine_digits {word₁ word₂ : List Char} (h₁ : ∀ c ∈ word₁, c.isDigit = true)
    (hne₁ : word₁ ≠ []) (h₂ : ∀ c ∈ word₂, c.isDigit = true) (hne₂ : word₂ ≠ [])
    (hfits₁ : FitsInt (value word₁)) (hfits₂ : FitsInt (value word₂)) :
    PairLine (value word₁, value word₂) (word₁ ++ ' ' :: word₂) :=
  ⟨word₁, word₂, words_two (isSpace_digits h₁) hne₁ (isSpace_digits h₂) hne₂,
    ⟨.plain hne₁ h₁, hfits₁⟩, .plain hne₂ h₂, hfits₂⟩

theorem keyLine_digits {key : String} {word : List Char}
    (hkey : ∀ c ∈ key.toList, isSpace c = false) (hne : key.toList ≠ [])
    (h : ∀ c ∈ word, c.isDigit = true) (hne' : word ≠ []) (hfits : FitsInt (value word)) :
    KeyLine key (value word) (key.toList ++ ' ' :: word) :=
  ⟨word, [], words_two hkey hne (isSpace_digits h) hne', .plain hne' h, hfits⟩

/-- Two tokens of a prompt and a generated one, in two layers. -/
def threeTokens : SequenceTrace where
  lin := 2
  lout := 1
  sum layer token := (2 * layer + token, 7)
  gen := [fun layer => (layer, 5)]

def threeTokensLines : List (List Char) :=
  ["seq_0".toList, "Lin 2".toList, "Sum".toList, "0 7".toList, "1 7".toList, "2 7".toList,
    "3 7".toList, "Gen".toList, "0 5".toList, "1 5".toList, "Lout 1".toList]

theorem threeTokens_written : TraceLines 2 [threeTokens] threeTokensLines := by
  have hpair (a b : Char) (ha : a.isDigit = true) (hb : b.isDigit = true)
      (hfits : FitsInt (value [a]) ∧ FitsInt (value [b])) :
      PairLine (value [a], value [b]) [a, ' ', b] :=
    pairLine_digits (by simpa using ha) (List.cons_ne_nil _ _) (by simpa using hb)
      (List.cons_ne_nil _ _) hfits.1 hfits.2
  have hkey (key : String) (hspace : ∀ c ∈ key.toList, isSpace c = false) (hne : key.toList ≠ [])
      (a : Char) (ha : a.isDigit = true) (hfits : FitsInt (value [a])) :
      KeyLine key (value [a]) (key.toList ++ [' ', a]) :=
    keyLine_digits hspace hne (by simpa using ha) (List.cons_ne_nil _ _) hfits
  have hsequence := @SequenceLines.mk 2 threeTokens ["seq_0".toList]
    ["0 7".toList, "1 7".toList, "2 7".toList, "3 7".toList] ["0 5".toList, "1 5".toList]
    "Lin 2".toList "Sum".toList "Gen".toList "Lout 1".toList
    (by
      intro line hline
      obtain rfl := List.mem_singleton.mp hline
      exact ⟨_, words_one (unspaced (by decide)) (by decide), rfl⟩)
    (hkey "Lin" (unspaced (by decide)) (by decide) '2' rfl (by decide))
    ⟨[], words_one (unspaced (by decide)) (by decide)⟩
    (.cons (hpair '0' '7' rfl rfl (by decide)) (.cons (hpair '1' '7' rfl rfl (by decide))
      (.cons (hpair '2' '7' rfl rfl (by decide)) (.cons (hpair '3' '7' rfl rfl (by decide)) .nil))))
    ⟨[], words_one (unspaced (by decide)) (by decide)⟩
    (.cons (hpair '0' '5' rfl rfl (by decide)) (.cons (hpair '1' '5' rfl rfl (by decide)) .nil))
    (hkey "Lout" (unspaced (by decide)) (by decide) '1' rfl (by decide))
  exact .cons hsequence .nil

theorem initExpertList_threeTokens :
    ∃ r, Scheduler.initExpertList { maxSeqLen := 4, inputLen := 2, outputLen := 1, numLayers := 2 }
        threeTokensLines = .ok r ∧
      r.trace.sequencesInfo = [threeTokens].map (fun t => ⟨t.lin, t.lout⟩) ∧
      ∀ (seqId : ℕ) (t : SequenceTrace), [threeTokens][seqId]? = some t →
        ∀ token < t.lin + t.gen.length, ∀ layer < (2 : ℕ), ∀ topK ≤ 2,
          BatchedSequence.traceExperts { expertList := r.expertLists } seqId
              ((token : ℤ) * BatchedSequence.numLayer
                { maxSeqLen := 4, inputLen := 2, outputLen := 1, numLayers := 2 } + layer) (topK : ℕ)
            = some ((SequenceTrace.row (t.experts token layer)).take topK) :=
  initExpertList_layout rfl threeTokens_written

end LlmSystem
