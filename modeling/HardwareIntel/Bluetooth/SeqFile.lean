import HardwareIntel.Bluetooth.PatchFile
import Mathlib.Data.List.Forall2
import Mathlib.Tactic.SplitIfs

/-!
# Well-formed patch files

A well-formed file consists of lines that end with CR LF: comments, blank lines, commands with as many
parameter bytes as their length byte says, and events. `command_store` is what the driver makes of a
command line. A line of another kind may be longer than the line buffer, and then its later chunks are
looked at as if they were lines.
-/

namespace HardwareIntel.Bluetooth

open List

/-! ### The format -/

/-- The digit of a half byte; the letters start at `letters`. -/
def digit (letters v : UInt8) : UInt8 := if v < 10 then 0x30 + v else letters + (v - 10)

/-- A digit in upper or lower case. -/
def IsDigit (c v : UInt8) : Prop := c = digit 0x41 v ∨ c = digit 0x61 v

/-- The text of a sequence of bytes, with two digits for each byte. -/
inductive HexText : List UInt8 → List UInt8 → Prop
  | nil : HexText [] []
  | cons {hi lo b : UInt8} {text bytes : List UInt8} (hhi : IsDigit hi (b >>> 4))
      (hlo : IsDigit lo (b &&& 0xF)) (h : HexText text bytes) :
      HexText (hi :: lo :: text) (b :: bytes)

/-- The lines of a patch file. -/
inductive PatchLine
  | comment
  | blank
  | event
  | command (opcode : UInt16) (params : List UInt8)

/-- Columns are separated by one character. -/
def IsSeparator (c : UInt8) : Prop := c ≠ 0 ∧ c ≠ 0x0A

/-- The text of a line without its CR LF. -/
inductive LineText : List UInt8 → PatchLine → Prop
  | comment {text : List UInt8} (h : 0x0A ∉ text) : LineText (0x2A :: text) .comment
  | blank : LineText [] .blank
  | event {text : List UInt8} (h : 0x0A ∉ text) : LineText (0x30 :: 0x32 :: text) .event
  | command {opcode : UInt16} {params head length text : List UInt8} {sep sep' : UInt8}
      (hsep : IsSeparator sep) (hsep' : IsSeparator sep') (hhead : HexText head (uint16ToStream opcode))
      (hlength : HexText length [params.length.toUInt8]) (htext : HexText text params)
      (hfits : params.length ≤ 255) :
      LineText (0x30 :: 0x31 :: sep :: (head ++ sep' :: (length ++ text))) (.command opcode params)

def crlf : List UInt8 := [0x0D, 0x0A]

/-- The content of a file with these lines. -/
def contentOf (texts : List (List UInt8)) : List UInt8 := texts.flatMap (· ++ crlf)

namespace PatchLine

def isCommand : PatchLine → Bool
  | command _ _ => true
  | _ => false

/-- The opcode and the bytes of a command line, as they are to be sent. -/
def sent : PatchLine → Option (UInt16 × List UInt8)
  | command opcode params =>
    some (opcode, uint16ToStream opcode ++ params.length.toUInt8 :: params)
  | _ => none

end PatchLine

/-- The opcode of a command and the bytes of its length. -/
def Command.sent (c : Command) : UInt16 × List UInt8 := (c.opcode, c.bytes.take c.len)

/-! ### Digits -/

/-- Bytes are numbers below 256. -/
theorem forall_uint8 {P : UInt8 → Prop} : (∀ b : UInt8, P b) ↔ ∀ b : Fin 256, P (UInt8.ofFin b) :=
  ⟨fun h _ => h _, fun h b => h b.toFin⟩

/-- Each digit reads back as its value. -/
theorem charToHex_digit : ∀ v : UInt8, v < 16 →
    charToHex (digit 0x41 v) = v ∧ charToHex (digit 0x61 v) = v := by
  rw [forall_uint8]
  decide +kernel

/-- A digit ends neither the line nor the text. -/
theorem digit_isSeparator : ∀ v : UInt8, v < 16 →
    (digit 0x41 v ≠ 0 ∧ digit 0x41 v ≠ 0x0A) ∧ digit 0x61 v ≠ 0 ∧ digit 0x61 v ≠ 0x0A := by
  rw [forall_uint8]
  decide +kernel

/-- Two halves make a byte. -/
theorem halves : ∀ b : UInt8, b >>> 4 < 16 ∧ b &&& 0xF < 16 ∧ (b >>> 4) <<< 4 ||| (b &&& 0xF) = b := by
  rw [forall_uint8]
  decide +kernel

/-- A digit of either case reads back. -/
theorem IsDigit.charToHex {c v : UInt8} (h : IsDigit c v) (hv : v < 16) : charToHex c = v := by
  rcases h with rfl | rfl
  · exact (charToHex_digit v hv).1
  · exact (charToHex_digit v hv).2

/-- A digit of either case ends nothing. -/
theorem IsDigit.isSeparator {c v : UInt8} (h : IsDigit c v) (hv : v < 16) : IsSeparator c := by
  rcases h with rfl | rfl
  · exact (digit_isSeparator v hv).1
  · exact (digit_isSeparator v hv).2

/-- Two digits make the byte. -/
theorem formByte_of_isDigit {hi lo b : UInt8} (hhi : IsDigit hi (b >>> 4))
    (hlo : IsDigit lo (b &&& 0xF)) : formByte hi lo = b := by
  obtain ⟨h1, h2, h3⟩ := halves b
  rw [formByte, hhi.charToHex h1, hlo.charToHex h2, h3]

/-- Two bytes make the word. -/
theorem formWord_uint16ToStream (opcode : UInt16) :
    formWord (opcode >>> 8).toUInt8 opcode.toUInt8 = opcode := by
  have hopcode := opcode.toNat_lt
  rw [formWord, ← UInt16.toNat_inj]
  simp only [UInt16.toNat_or, UInt16.toNat_shiftLeft, UInt8.toNat_toUInt16, UInt16.toNat_toUInt8,
    UInt16.toNat_shiftRight, UInt16.toNat_ofNat, Nat.reducePow, Nat.reduceMod]
  have hhigh : opcode.toNat >>> 8 < 256 := by
    omega
  have hword : opcode.toNat >>> 8 <<< 8 < 65536 := by
    omega
  rw [Nat.mod_eq_of_lt hhigh, Nat.mod_eq_of_lt hword,
    ← Nat.shiftLeft_add_eq_or_of_lt (i := 8) (Nat.mod_lt _ (by decide)),
    Nat.shiftRight_eq_div_pow, Nat.shiftLeft_eq]
  omega

namespace HexText

variable {text bytes : List UInt8}

/-- Two digits for each byte. -/
theorem length (h : HexText text bytes) : text.length = 2 * bytes.length := by
  induction h with
  | nil => rfl
  | cons _ _ _ ih =>
    rw [length_cons, length_cons, length_cons, ih]
    omega

/-- Digits end nothing. -/
theorem isSeparator (h : HexText text bytes) : ∀ c ∈ text, IsSeparator c := by
  induction h with
  | nil => exact fun c hc => absurd hc not_mem_nil
  | @cons _ _ b _ _ hhi hlo _ ih =>
    obtain ⟨h1, h2, -⟩ := halves b
    exact forall_mem_cons.mpr ⟨hhi.isSeparator h1, forall_mem_cons.mpr ⟨hlo.isSeparator h2, ih⟩⟩

/-- The byte of two digits that stand next to each other. -/
theorem formByte_getD (h : HexText text bytes) (rest : List UInt8) :
    ∀ k (hk : k < bytes.length),
      formByte ((text ++ rest).getD (2 * k) 0) ((text ++ rest).getD (2 * k + 1) 0) = bytes[k] := by
  induction h with
  | nil => exact fun k hk => absurd hk (Nat.not_lt_zero k)
  | cons hhi hlo h ih =>
    intro k hk
    cases k with
    | zero => exact formByte_of_isDigit hhi hlo
    | succ k => exact ih k (Nat.lt_of_succ_lt_succ hk)

end HexText

/-! ### Lines and chunks -/

section Lines

variable {text : List UInt8} {line : PatchLine}

/-- The text of a line holds no line feed. -/
theorem LineText.not_mem (h : LineText text line) : 0x0A ∉ text := by
  cases h with
  | comment h => exact not_mem_cons_of_ne_of_not_mem (by decide) h
  | blank => exact not_mem_nil
  | event h =>
    exact not_mem_cons_of_ne_of_not_mem (by decide)
      (not_mem_cons_of_ne_of_not_mem (by decide) h)
  | command hsep hsep' hhead hlength htext hfits =>
    intro hmem
    simp only [mem_cons, mem_append] at hmem
    rcases hmem with h | h | h | h | h | h | h
    · exact absurd h (by decide)
    · exact absurd h (by decide)
    · exact hsep.2 h.symm
    · exact (hhead.isSeparator _ h).2 rfl
    · exact hsep'.2 h.symm
    · exact (hlength.isSeparator _ h).2 rfl
    · exact (htext.isSeparator _ h).2 rfl

/-- The pieces in which a line is read. -/
def chunksOf (text : List UInt8) : List (List UInt8) := chunks (text ++ crlf)

/-- A line is cut by itself. -/
theorem chunks_line {l : List UInt8} (hl : 0x0A ∉ l) (r : List UInt8) :
    chunks (l ++ 0x0A :: r) = chunks (l ++ [0x0A]) ++ chunks r := by
  induction hn : l.length using Nat.strong_induction_on generalizing l with
  | _ n ih =>
    rw [chunks_eq_cons (r := l ++ 0x0A :: r) (by simp), chunks_eq_cons (r := l ++ [0x0A]) (by simp)]
    rcases Nat.lt_or_ge l.length (lineLenMax - 1) with hlt | hge
    · rw [readLine_line hl hlt, readLine_line hl hlt, chunks_nil]
      rfl
    · rw [readLine_part hl hge, readLine_part hl hge]
      have hpos : 0 < lineLenMax - 1 := by decide
      rw [ih (l.drop (lineLenMax - 1)).length (by rw [length_drop]; omega)
        (fun hmem => hl (mem_of_mem_drop hmem)) rfl]
      rfl

/-- The carriage return adds no line feed. -/
theorem not_mem_append_cr (h : 0x0A ∉ text) : 0x0A ∉ text ++ [0x0D] := by
  rw [mem_append]
  exact fun hmem => hmem.elim h (by decide)

/-- The line end in two parts. -/
theorem append_crlf (text : List UInt8) : text ++ crlf = text ++ [0x0D] ++ [0x0A] := by
  rw [append_assoc]
  rfl

/-- A file is cut line by line. -/
theorem chunksOf_append {text : List UInt8} (h : 0x0A ∉ text) (r : List UInt8) :
    chunks (text ++ crlf ++ r) = chunksOf text ++ chunks r := by
  simpa [chunksOf, crlf] using chunks_line (not_mem_append_cr h) r

/-- A file is read line by line. -/
theorem chunks_contentOf {texts : List (List UInt8)} (h : ∀ text ∈ texts, 0x0A ∉ text) :
    chunks (contentOf texts) = texts.flatMap chunksOf := by
  induction texts with
  | nil => rfl
  | cons text texts ih =>
    rw [forall_mem_cons] at h
    rw [contentOf, flatMap_cons, chunksOf_append h.1, flatMap_cons]
    exact congrArg (chunksOf text ++ ·) (ih h.2)

/-- The first chunk of a line is its beginning. -/
theorem chunksOf_eq_cons (h : 0x0A ∉ text) :
    ∃ later, chunksOf text = (text ++ crlf).take (lineLenMax - 1) :: later := by
  have hl := not_mem_append_cr h
  rw [chunksOf, append_crlf, chunks_eq_cons (by simp)]
  rcases Nat.lt_or_ge (text ++ [0x0D]).length (lineLenMax - 1) with hlt | hge
  · rw [readLine_line hl hlt, take_of_length_le (by rw [length_append]; exact hlt)]
    exact ⟨_, rfl⟩
  · rw [readLine_part hl hge, take_append_of_le_length hge]
    exact ⟨_, rfl⟩

/-- A line that fits is one chunk. -/
theorem chunksOf_eq_singleton (h : 0x0A ∉ text) (hlength : text.length + 2 < lineLenMax) :
    chunksOf text = [text ++ crlf] := by
  have hlt : (text ++ [0x0D]).length < lineLenMax - 1 := by
    rw [length_append, length_singleton]
    omega
  rw [chunksOf, append_crlf, chunks_eq_cons (by simp), readLine_line (not_mem_append_cr h) hlt,
    chunks_nil]

/-- The chunks of a line behind the first one. -/
def laterChunks (text : List UInt8) : List (List UInt8) := (chunksOf text).tail

/-- A line is its first chunk and the later ones. -/
theorem chunksOf_eq (h : 0x0A ∉ text) :
    chunksOf text = (text ++ crlf).take (lineLenMax - 1) :: laterChunks text := by
  obtain ⟨later, hlater⟩ := chunksOf_eq_cons h
  rw [laterChunks, hlater, tail_cons]

/-- Whether a chunk is skipped, by its first two bytes. -/
theorem skippedChunk_cons (a b : UInt8) (r : List UInt8) :
    skippedChunk (a :: b :: r) = (a == 0x2A || a == 0x0D || a == 0x46 || b == 0x32) := by
  simp [skippedChunk, Line.skipped, store_of_le]

/-- Whether it is a command, by the same bytes. -/
theorem isCommandChunk_cons (a b : UInt8) (r : List UInt8) :
    isCommandChunk (a :: b :: r) = (a == 0x30 && b == 0x31) := by
  simp [isCommandChunk, Line.isCommand, store_of_le]

/-- A skipped chunk is no command. -/
theorem isCommandChunk_of_skipped {c : List UInt8} (h : skippedChunk c = true) :
    isCommandChunk c = false :=
  Bool.eq_false_iff.mpr fun hc => by simp [skippedChunk, not_skipped_of_isCommand hc] at h

/-- A line that is no command is left out, as far as its first chunk is concerned. -/
theorem LineText.skipped (h : LineText text line) (hline : line.isCommand = false) :
    skippedChunk ((text ++ crlf).take (lineLenMax - 1)) = true := by
  have htwo : ∀ a b r, ((a :: b :: r : List UInt8)).take (lineLenMax - 1) =
      a :: b :: r.take (lineLenMax - 3) := fun _ _ _ => rfl
  cases h with
  | @comment text h =>
    cases text with
    | nil => rfl
    | cons b r => rw [cons_append, cons_append, htwo, skippedChunk_cons]; rfl
  | blank => rfl
  | event h => rw [cons_append, cons_append, htwo, skippedChunk_cons]; rfl
  | command => cases hline

/-- The digits of two bytes. -/
theorem HexText.exists_of_two {head : List UInt8} {b b' : UInt8} (h : HexText head [b, b']) :
    ∃ h₀ h₁ h₂ h₃, head = [h₀, h₁, h₂, h₃] ∧ formByte h₀ h₁ = b ∧ formByte h₂ h₃ = b' := by
  cases h with
  | cons hhi hlo h =>
    cases h with
    | cons hhi' hlo' h =>
      cases h
      exact ⟨_, _, _, _, rfl, formByte_of_isDigit hhi hlo, formByte_of_isDigit hhi' hlo'⟩

/-- The digits of one byte. -/
theorem HexText.exists_of_one {head : List UInt8} {b : UInt8} (h : HexText head [b]) :
    ∃ h₀ h₁, head = [h₀, h₁] ∧ formByte h₀ h₁ = b := by
  cases h with
  | cons hhi hlo h =>
    cases h
    exact ⟨_, _, rfl, formByte_of_isDigit hhi hlo⟩

variable {params : List UInt8} {opcode : UInt16}

/-- A command line fits into the line buffer. -/
theorem LineText.length_command (h : LineText text (.command opcode params)) :
    text.length + 2 < lineLenMax := by
  cases h with
  | command hsep hsep' hhead hlength htext hfits =>
    have hhead' := hhead.length
    have hlength' := hlength.length
    have htext' := htext.length
    simp only [length_cons, length_append, uint16ToStream, length_nil] at *
    rw [show lineLenMax = 1024 from rfl]
    omega

/-- A command's line is one chunk, which is a command. -/
theorem LineText.chunksOf_command (h : LineText text (.command opcode params)) :
    chunksOf text = [text ++ crlf] ∧ isCommandChunk (text ++ crlf) = true := by
  refine ⟨chunksOf_eq_singleton h.not_mem h.length_command, ?_⟩
  cases h with
  | command => rw [cons_append, cons_append, isCommandChunk_cons]; rfl

/-- The length, given where the zero stands. -/
theorem strlenFrom_eq {buffer : Line} {m : ℕ} (hne : ∀ j < m, buffer j ≠ 0) (hm : buffer m = 0) :
    ∀ n i : ℕ, i ≤ m → m - i ≤ n → strlenFrom buffer n i = m := by
  intro n
  induction n with
  | zero => exact fun i hi hn => by rw [strlenFrom]; omega
  | succ n ih =>
    intro i hi hn
    rw [strlenFrom]
    rcases Nat.lt_or_eq_of_le hi with hlt | rfl
    · rw [if_neg (hne i hlt)]
      exact ih (i + 1) hlt (by omega)
    · rw [if_pos hm]

/-- The length of a stored chunk. -/
theorem strlen_store_eq (buffer : Line) {c : List UInt8} (hc : 0 ∉ c) (hlength : c.length ≤ lineLenMax) :
    strlen (buffer.store c) = c.length := by
  refine strlenFrom_eq (fun j hj => ?_) ?_ _ _ (Nat.zero_le _) (by omega)
  · rw [store_of_le _ hj.le, getD_eq_getElem?_getD, List.getElem?_eq_getElem hj, Option.getD_some]
    exact fun h => hc (h ▸ getElem_mem hj)
  · rw [store_of_le _ le_rfl, getD_length]

/-- A command's line holds no zero. -/
theorem LineText.zero_not_mem (h : LineText text (.command opcode params)) : 0 ∉ text ++ crlf := by
  cases h with
  | command hsep hsep' hhead hlength htext hfits =>
    intro hmem
    simp only [mem_cons, mem_append] at hmem
    rcases hmem with (h | h | h | h | h | h | h) | h
    · exact absurd h (by decide)
    · exact absurd h (by decide)
    · exact hsep.1 h.symm
    · exact (hhead.isSeparator _ h).1 rfl
    · exact hsep'.1 h.symm
    · exact (hlength.isSeparator _ h).1 rfl
    · exact (htext.isSeparator _ h).1 rfl
    · exact absurd h (by decide)

/-- The parameters that are formed from the digits of a line; the last one comes from CR LF. -/
theorem params_eq {rest : List UInt8} (htext : HexText text params) (buffer : Line)
    (hbuffer : ∀ j ≤ 2 * params.length + 1, buffer (10 + j) = (text ++ rest).getD j 0) :
    ((List.range (params.length + 1)).map fun k =>
      formByte (buffer (10 + 2 * k)) (buffer (11 + 2 * k))).take params.length = params := by
  rw [← map_take, take_range, Nat.min_eq_left (Nat.le_succ _)]
  refine ext_getElem (by simp) fun k hk hk' => ?_
  rw [getElem_map, getElem_range, show 11 + 2 * k = 10 + (2 * k + 1) by omega,
    hbuffer _ (by omega), hbuffer _ (by omega)]
  exact htext.formByte_getD rest k hk'

/-- What the driver makes of a command line, whatever was in the line buffer. -/
theorem command_store (h : LineText text (.command opcode params)) (buffer : Line) :
    (buffer.store (text ++ crlf)).command.sent =
      (opcode, uint16ToStream opcode ++ params.length.toUInt8 :: params) := by
  have hstrlen := strlen_store_eq buffer h.zero_not_mem
    (Nat.le_of_lt (by simpa [crlf] using h.length_command))
  have hget : ∀ j ≤ (text ++ crlf).length, buffer.store (text ++ crlf) j = (text ++ crlf).getD j 0 :=
    fun j hj => store_of_le _ hj
  generalize buffer.store (text ++ crlf) = line at *
  cases h with
  | @command _ params head length text sep sep' hsep hsep' hhead hlength htext hfits =>
    obtain ⟨h₀, h₁, h₂, h₃, rfl, hlow, hhigh⟩ := hhead.exists_of_two
    obtain ⟨l₀, l₁, rfl, hl⟩ := hlength.exists_of_one
    have htwo := htext.length
    simp only [cons_append, nil_append, length_cons, length_append] at hget hstrlen
    have hopcode : formWord (formByte (line 5) (line 6)) (formByte (line 3) (line 4)) = opcode := by
      rw [hget 3 (by omega), hget 4 (by omega), hget 5 (by omega), hget 6 (by omega)]
      simp only [getD_cons_succ, getD_cons_zero]
      rw [hlow, hhigh, formWord_uint16ToStream]
    have hsize : formByte (line 8) (line 9) = params.length.toUInt8 := by
      rw [hget 8 (by omega), hget 9 (by omega)]
      exact hl
    have hlen : params.length.toUInt8.toNat = params.length := by
      exact Nat.mod_eq_of_lt (Nat.lt_succ_of_le hfits)
    have hcount : (strlen line - 10 + 1) / 2 = params.length + 1 := by
      rw [hstrlen]
      simp only [crlf, length_cons, length_nil]
      omega
    rw [Command.sent, Line.command]
    rw [hopcode, hsize, hcount, hlen, uint16ToStream]
    have hdigits : ∀ j ≤ 2 * params.length + 1, line (10 + j) = (text ++ crlf).getD j 0 := by
      intro j hj
      rw [hget (10 + j) (by omega), Nat.add_comm 10 j]
      simp
    have hparams := params_eq htext line hdigits
    simpa [take_add, Nat.add_comm 3] using hparams

end Lines

end HardwareIntel.Bluetooth
