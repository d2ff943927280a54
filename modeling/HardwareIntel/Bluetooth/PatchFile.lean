import HardwareIntel.Bluetooth.Hardware

/-!
# Reading a patch file

A file is read in `chunks`: what one call of `fgets` takes is a line, or a part of a line that is
longer than the buffer. `nextLine_eq` says what the loop over the lines does to the chunks that are
left, and `commandChunks` are those that are sent as commands.
-/

namespace HardwareIntel.Bluetooth

open List

/-! ### Chunks -/

section ReadLine

variable {n : ℕ} {r : List UInt8}

/-- A line ends with its line feed. -/
theorem readLine_cons (n : ℕ) (c : UInt8) (r : List UInt8) :
    readLine (n + 1) (c :: r) =
      if c = 0x0A then ([c], ⟨r, false⟩) else (c :: (readLine n r).1, (readLine n r).2) := rfl

/-- What is read and what is left are the file. -/
theorem readLine_append (n : ℕ) (r : List UInt8) :
    (readLine n r).1 ++ (readLine n r).2.rest = r := by
  induction n generalizing r with
  | zero => rfl
  | succ n ih =>
    cases r with
    | nil => rfl
    | cons c r =>
      rw [readLine_cons]
      split
      · rfl
      · exact congrArg (c :: ·) (ih r)

/-- No more is read than the buffer takes. -/
theorem length_readLine_le (n : ℕ) (r : List UInt8) : (readLine n r).1.length ≤ n := by
  induction n generalizing r with
  | zero => exact le_rfl
  | succ n ih =>
    cases r with
    | nil => exact Nat.zero_le _
    | cons c r =>
      rw [readLine_cons]
      split
      · exact Nat.succ_le_succ (Nat.zero_le n)
      · exact Nat.succ_le_succ (ih r)

/-- Something is read unless the file is at its end. -/
theorem readLine_ne_nil (hn : 0 < n) (hr : r ≠ []) : (readLine n r).1 ≠ [] := by
  obtain ⟨n, rfl⟩ := Nat.exists_eq_add_one.mpr hn
  obtain ⟨c, r, rfl⟩ := exists_cons_of_ne_nil hr
  rw [readLine_cons]
  split <;> simp

/-- At the end of the file nothing is left. -/
theorem rest_readLine_of_eof (h : (readLine n r).2.eof = true) : (readLine n r).2.rest = [] := by
  induction n generalizing r with
  | zero => exact absurd h Bool.false_ne_true
  | succ n ih =>
    cases r with
    | nil => rfl
    | cons c r =>
      rw [readLine_cons] at h ⊢
      split at h
      · simp at h
      · rename_i hc
        rw [if_neg hc]
        exact ih h

/-- A line that fits is read as a whole. -/
theorem readLine_line {l : List UInt8} (hl : 0x0A ∉ l) (hn : l.length < n) (r : List UInt8) :
    readLine n (l ++ 0x0A :: r) = (l ++ [0x0A], ⟨r, false⟩) := by
  induction l generalizing n with
  | nil =>
    obtain ⟨n, rfl⟩ := Nat.exists_eq_add_one.mpr hn
    rfl
  | cons c l ih =>
    obtain ⟨n, rfl⟩ := Nat.exists_eq_add_one.mpr (Nat.zero_lt_of_lt hn)
    have hc : c ≠ 0x0A := fun heq => hl (heq ▸ mem_cons_self ..)
    have hl' : 0x0A ∉ l := fun hmem => hl (mem_cons_of_mem _ hmem)
    rw [cons_append, readLine_cons, if_neg hc, ih hl' (Nat.lt_of_succ_lt_succ hn)]
    rfl

/-- Of a line that does not fit the first part is read. -/
theorem readLine_part {l : List UInt8} (hl : 0x0A ∉ l) (hn : n ≤ l.length) (r : List UInt8) :
    readLine n (l ++ r) = (l.take n, ⟨l.drop n ++ r, false⟩) := by
  induction l generalizing n with
  | nil =>
    obtain rfl := Nat.le_zero.mp hn
    rfl
  | cons c l ih =>
    cases n with
    | zero => rfl
    | succ n =>
      have hc : c ≠ 0x0A := fun heq => hl (heq ▸ mem_cons_self ..)
      have hl' : 0x0A ∉ l := fun hmem => hl (mem_cons_of_mem _ hmem)
      rw [cons_append, readLine_cons, if_neg hc, ih hl' (Nat.le_of_succ_le_succ hn)]
      rfl

end ReadLine

/-- The pieces that at most `fuel` calls of `fgets` take. -/
def chunksFrom : ℕ → List UInt8 → List (List UInt8)
  | 0, _ => []
  | fuel + 1, r =>
    let (chunk, fp) := readLine (lineLenMax - 1) r
    if chunk = [] then [] else chunk :: chunksFrom fuel fp.rest

/-- One more chunk. -/
theorem chunksFrom_succ (fuel : ℕ) (r : List UInt8) :
    chunksFrom (fuel + 1) r =
      if (readLine (lineLenMax - 1) r).1 = [] then []
      else (readLine (lineLenMax - 1) r).1 ::
        chunksFrom fuel (readLine (lineLenMax - 1) r).2.rest := rfl

/-- The pieces in which the rest of a file is read. -/
def chunks (r : List UInt8) : List (List UInt8) := chunksFrom r.length r

/-- A chunk that is read makes the file shorter. -/
theorem length_rest_lt {r : List UInt8} (hr : r ≠ []) :
    (readLine (lineLenMax - 1) r).2.rest.length < r.length := by
  have hlength := congrArg List.length (readLine_append (lineLenMax - 1) r)
  have hpos := length_pos_iff.mpr
    (readLine_ne_nil (n := lineLenMax - 1) (by decide) hr)
  rw [length_append] at hlength
  omega

/-- An empty file has no chunks. -/
@[simp] theorem chunksFrom_nil (fuel : ℕ) : chunksFrom fuel [] = [] := by
  cases fuel <;> rfl

/-- Enough fuel is as good as more. -/
theorem chunksFrom_eq (fuel : ℕ) : ∀ k, ∀ r : List UInt8, r.length ≤ fuel → r.length ≤ k →
    chunksFrom fuel r = chunksFrom k r := by
  induction fuel with
  | zero =>
    intro k r hr _
    rw [eq_nil_of_length_eq_zero (Nat.le_zero.mp hr), chunksFrom_nil, chunksFrom_nil]
  | succ fuel ih =>
    intro k r hr hk
    rcases eq_or_ne r [] with rfl | hne
    · rw [chunksFrom_nil, chunksFrom_nil]
    · have hlt := length_rest_lt hne
      obtain ⟨k, rfl⟩ := Nat.exists_eq_add_one.mpr (Nat.lt_of_lt_of_le (length_pos_iff.mpr hne) hk)
      rw [chunksFrom_succ, chunksFrom_succ, ih k _ (by omega) (by omega)]

/-- So it has for the whole loop. -/
@[simp] theorem chunks_nil : chunks [] = [] := rfl

/-- The chunks of a file that is not empty. -/
theorem chunks_eq_cons {r : List UInt8} (hr : r ≠ []) :
    chunks r = (readLine (lineLenMax - 1) r).1 :: chunks (readLine (lineLenMax - 1) r).2.rest := by
  have hlt := length_rest_lt hr
  obtain ⟨k, hk⟩ := Nat.exists_eq_add_one.mpr (length_pos_iff.mpr hr)
  rw [chunks, hk, chunksFrom_succ, if_neg (readLine_ne_nil (by decide) hr), chunks, chunksFrom_eq k _ _ (by omega) le_rfl]

/-- A chunk is not empty and fits into the buffer. -/
theorem mem_chunksFrom {c : List UInt8} (fuel : ℕ) : ∀ r : List UInt8, c ∈ chunksFrom fuel r →
    c ≠ [] ∧ c.length < lineLenMax := by
  induction fuel with
  | zero => exact fun r h => absurd h not_mem_nil
  | succ fuel ih =>
    intro r h
    rw [chunksFrom_succ] at h
    split at h
    · exact absurd h not_mem_nil
    · rename_i hne
      rcases mem_cons.mp h with rfl | h
      · exact ⟨hne, Nat.lt_of_le_pred (by decide) (length_readLine_le _ _)⟩
      · exact ih _ h

/-- What is read at once fits into the line buffer together with its null byte. -/
theorem mem_chunks {c r : List UInt8} (h : c ∈ chunks r) : c ≠ [] ∧ c.length < lineLenMax :=
  mem_chunksFrom _ _ h

/-! ### The line buffer -/

section Store

variable {c : List UInt8} {i : ℕ} (line : Line)

/-- Behind a chunk stands the zero. -/
theorem getD_length (c : List UInt8) : c.getD c.length 0 = 0 := by simp

/-- Up to the null byte the buffer does not depend on what was there. -/
theorem store_of_le (hi : i ≤ c.length) : line.store c i = c.getD i 0 := by
  rw [Line.store]
  rcases Nat.lt_or_eq_of_le hi with hlt | rfl
  · rw [if_pos hlt]
  · rw [if_neg (Nat.lt_irrefl _), if_pos rfl, getD_length c]

/-- Whether a chunk is skipped does not depend on the old buffer. -/
theorem skipped_store (hc : c ≠ []) : (line.store c).skipped = (emptyLine.store c).skipped := by
  have hpos := length_pos_iff.mpr hc
  simp only [Line.skipped, store_of_le _ (Nat.zero_le c.length),
    store_of_le _ (show 1 ≤ c.length from hpos)]

/-- Nor does whether it is a command. -/
theorem isCommand_store (hc : c ≠ []) :
    (line.store c).isCommand = (emptyLine.store c).isCommand := by
  have hpos := length_pos_iff.mpr hc
  simp only [Line.isCommand, store_of_le _ (Nat.zero_le c.length),
    store_of_le _ (show 1 ≤ c.length from hpos)]

/-- One more byte of the length. -/
theorem strlenFrom_succ (line : Line) (n i : ℕ) :
    strlenFrom line (n + 1) i = if line i = 0 then i else strlenFrom line n (i + 1) := rfl

/-- The length depends on the bytes up to the zero only. -/
theorem strlenFrom_congr {line line' : Line} {m : ℕ} (heq : ∀ j ≤ m, line j = line' j)
    (hm : line m = 0) : ∀ n i : ℕ, i ≤ m → strlenFrom line n i = strlenFrom line' n i := by
  intro n
  induction n with
  | zero => exact fun i _ => rfl
  | succ n ih =>
    intro i hi
    rw [strlenFrom_succ, strlenFrom_succ, ← heq i hi]
    split
    · rfl
    · rename_i hne
      exact ih (i + 1) (Nat.lt_of_le_of_ne hi fun h => hne (h ▸ hm))

/-- The length does not depend on the old buffer. -/
theorem strlen_store : strlen (line.store c) = strlen (emptyLine.store c) := by
  refine strlenFrom_congr (m := c.length) (fun j hj => ?_) ?_ _ _ (Nat.zero_le _)
  · rw [store_of_le _ hj, store_of_le _ hj]
  · rw [store_of_le _ le_rfl, getD_length c]

end Store

/-- A chunk that is left out; the chunks are not empty. -/
def skippedChunk (c : List UInt8) : Bool := (emptyLine.store c).skipped

def isCommandChunk (c : List UInt8) : Bool := (emptyLine.store c).isCommand

/-- A command is not skipped. -/
theorem not_skipped_of_isCommand {line : Line} (h : line.isCommand = true) :
    line.skipped = false := by
  simp only [Line.isCommand, Bool.and_eq_true, beq_iff_eq] at h
  simp [Line.skipped, h.1, h.2]

/-- The chunks that are sent, up to the first one that is neither a command nor left out. -/
def commandChunks : List (List UInt8) → List (List UInt8)
  | [] => []
  | c :: cs =>
    if skippedChunk c then commandChunks cs
    else if isCommandChunk c then c :: commandChunks cs
    else []

/-! ### The loop over the lines -/

/-- What the loop over the lines ends with when these chunks are left. -/
inductive Finds : List (List UInt8) → HwCfg.Found → Prop
  | line {c : List UInt8} {line : Line} {fp : File} (hc : skippedChunk c = false)
      (heof : fp.eof = true → fp.rest = []) :
      Finds (c :: chunks fp.rest) (.line (line.store c) fp)
  | last {c : List UInt8} (hc : skippedChunk c = true) : Finds [c] .endOfFile
  | skip {c : List UInt8} {cs : List (List UInt8)} {found : HwCfg.Found}
      (hc : skippedChunk c = true) (h : Finds cs found) : Finds (c :: cs) found

/-- What `fgets` stores and leaves. -/
theorem fgets_of_ne_nil {r : List UInt8} (line : Line) (hr : r ≠ []) :
    fgets line ⟨r, false⟩ =
      (line.store (readLine (lineLenMax - 1) r).1, (readLine (lineLenMax - 1) r).2) := by
  rw [fgets]
  dsimp only
  rw [if_neg (readLine_ne_nil (by decide) hr), Bool.false_or]

/-- The loop that skips lines stops at what the chunks say. -/
theorem skipLines_finds (fuel : ℕ) : ∀ (line : Line) (c : List UInt8) (fp : File), c ≠ [] →
    (fp.eof = true → fp.rest = []) → fp.rest.length + 2 ≤ fuel →
    ∃ found, HwCfg.skipLines fuel (line.store c) fp = some found ∧
      Finds (c :: chunks fp.rest) found := by
  induction fuel with
  | zero => exact fun _ _ _ _ _ h => absurd h (by omega)
  | succ fuel ih =>
    intro line c fp hc heof hfuel
    cases hskip : skippedChunk c with
    | false =>
      refine ⟨.line (line.store c) fp, ?_, .line hskip heof⟩
      rw [HwCfg.skipLines, skipped_store line hc]
      exact if_neg (by simpa [skippedChunk] using hskip)
    | true =>
      have hskip' : (line.store c).skipped = true := (skipped_store line hc).trans hskip
      obtain ⟨r, eof⟩ := fp
      rw [HwCfg.skipLines, if_pos hskip']
      cases eof with
      | true =>
        obtain rfl := heof rfl
        exact ⟨_, rfl, .last hskip⟩
      | false =>
        rcases eq_or_ne r [] with rfl | hr
        · -- nothing is read, and the line that is left out is looked at once more
          obtain ⟨fuel, rfl⟩ := Nat.exists_eq_add_one.mpr (show 0 < fuel by simp at hfuel; omega)
          refine ⟨_, ?_, .last hskip⟩
          change HwCfg.skipLines (fuel + 1) (line.store c) ⟨[], true⟩ = _
          rw [HwCfg.skipLines, if_pos hskip']
          rfl
        · have hlt := length_rest_lt hr
          dsimp only at hfuel
          obtain ⟨found, hfound, hfinds⟩ := ih (line.store c) _ (readLine (lineLenMax - 1) r).2
            (readLine_ne_nil (n := lineLenMax - 1) (by decide) hr) rest_readLine_of_eof (by omega)
          refine ⟨found, ?_, ?_⟩
          · rw [fgets_of_ne_nil _ hr]
            exact hfound
          · rw [chunks_eq_cons hr]
            exact .skip hskip hfinds

/-- The next line is what the chunks say. -/
theorem nextLine_finds {r : List UInt8} (hr : r ≠ []) :
    ∃ found, HwCfg.nextLine ⟨r, false⟩ = some found ∧ Finds (chunks r) found := by
  rw [HwCfg.nextLine, fgets_of_ne_nil _ hr, chunks_eq_cons hr]
  exact skipLines_finds _ _ _ _ (readLine_ne_nil (by decide) hr) rest_readLine_of_eof le_rfl

/-- A file with nothing left in it: the line stays empty, which is no command. -/
theorem nextLine_nil : HwCfg.nextLine ⟨[], false⟩ = some (.line emptyLine ⟨[], true⟩) := rfl

/-- The line that is found and those that are left out before it. -/
theorem Finds.line_inv {cs : List (List UInt8)} {l : Line} {fp : File}
    (h : Finds cs (.line l fp)) :
    (fp.eof = true → fp.rest = []) ∧ ∃ pre c line, cs = pre ++ c :: chunks fp.rest ∧
      (∀ x ∈ pre, skippedChunk x = true) ∧ skippedChunk c = false ∧ l = Line.store line c := by
  generalize hfound : HwCfg.Found.line l fp = found at h
  induction h with
  | line hc heof =>
    cases hfound
    exact ⟨heof, [], _, _, rfl, fun _ h => absurd h not_mem_nil, hc, rfl⟩
  | last hc => cases hfound
  | @skip c cs found hc _ ih =>
    obtain ⟨heof, pre, c', line, rfl, hpre, hc', rfl⟩ := ih hfound
    exact ⟨heof, c :: pre, c', line, rfl, forall_mem_cons.mpr ⟨hc, hpre⟩, hc', rfl⟩

/-- At the end of the file every chunk has been skipped. -/
theorem Finds.endOfFile_inv {cs : List (List UInt8)} (h : Finds cs .endOfFile) :
    cs ≠ [] ∧ ∀ c ∈ cs, skippedChunk c = true := by
  generalize hfound : HwCfg.Found.endOfFile = found at h
  induction h with
  | line => cases hfound
  | last hc => exact ⟨cons_ne_nil _ _, fun x hx => (mem_singleton.mp hx) ▸ hc⟩
  | skip hc _ ih => exact ⟨cons_ne_nil _ _, forall_mem_cons.mpr ⟨hc, (ih hfound).2⟩⟩

/-! ### The commands of a file -/

/-- The commands from one chunk on. -/
theorem commandChunks_eq (c : List UInt8) (cs : List (List UInt8)) :
    commandChunks (c :: cs) =
      if skippedChunk c then commandChunks cs
      else if isCommandChunk c then c :: commandChunks cs else [] := rfl

/-- Skipped chunks hold no commands. -/
theorem commandChunks_append {pre : List (List UInt8)} (cs : List (List UInt8))
    (hpre : ∀ x ∈ pre, skippedChunk x = true) : commandChunks (pre ++ cs) = commandChunks cs := by
  induction pre with
  | nil => rfl
  | cons x pre ih =>
    rw [cons_append, commandChunks_eq, if_pos (hpre x (mem_cons_self ..))]
    exact ih fun y hy => hpre y (mem_cons_of_mem _ hy)

/-- A command stands in front of the others. -/
theorem commandChunks_cons {c : List UInt8} (cs : List (List UInt8))
    (hc : isCommandChunk c = true) : commandChunks (c :: cs) = c :: commandChunks cs := by
  rw [commandChunks_eq, if_neg (by simp [skippedChunk, not_skipped_of_isCommand hc]), if_pos hc]

end HardwareIntel.Bluetooth
