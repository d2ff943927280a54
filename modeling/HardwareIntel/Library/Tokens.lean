import Mathlib.Data.List.TakeWhile

/-!
# Tokens of a list

The tokens of a list are its pieces between the elements `d`, without the empty ones. The C function
`strtok` finds them one by one: it skips the delimiters at the front, and returns what comes before
the next delimiter, with the list behind it. `tokens_of_strtok` and `tokens_of_strtok_eq_none` say
that calling it again and again goes through `tokens`.
-/

namespace HardwareIntel

open List

universe u

variable {α : Type u} [DecidableEq α] {d : α}

/-- The pieces between delimiters that are not empty. -/
def tokens (d : α) (s : List α) : List (List α) := (s.splitOn d).filter (· ≠ [])

/-- The C function `strtok` with one delimiter: the next token, and the list behind the delimiter
that ends it. -/
def strtok (d : α) (s : List α) : Option (List α × List α) :=
  match s.dropWhile (· = d) with
  | [] => none
  | c :: t =>
    some ((c :: t).takeWhile (· ≠ d), ((c :: t).dropWhile (· ≠ d)).tail)

@[simp] theorem tokens_nil (d : α) : tokens d [] = [] := by
  simp [tokens, splitOn_nil]

/-- A delimiter separates. -/
theorem tokens_append_cons (d : α) (s t : List α) :
    tokens d (s ++ d :: t) = tokens d s ++ tokens d t := by
  rw [tokens, splitOn_append_cons_self, filter_append]
  rfl

@[simp] theorem tokens_cons_self (d : α) (s : List α) : tokens d (d :: s) = tokens d s := by
  simpa using tokens_append_cons d [] s

variable {s : List α}

/-- A list without delimiters is one token. -/
theorem tokens_of_notMem (hs : s ≠ []) (hd : d ∉ s) : tokens d s = [s] := by
  rw [tokens, splitOn_eq_singleton hd]
  simp [hs]

/-- Delimiters at the front do not matter. -/
theorem tokens_dropWhile (d : α) (s : List α) : tokens d (s.dropWhile (· = d)) = tokens d s := by
  induction s with
  | nil => rfl
  | cons c s ih =>
    by_cases hc : c = d
    · subst hc
      rw [dropWhile_cons_of_pos (by simp), ih, tokens_cons_self]
    · rw [dropWhile_cons_of_neg (by simpa using hc)]

/-- The elements of the pieces are elements of the list and no delimiters. -/
theorem of_mem_splitOn {p : List α} (hp : p ∈ s.splitOn d) : ∀ c ∈ p, c ∈ s ∧ c ≠ d := by
  induction s generalizing p with
  | nil =>
    rw [splitOn_nil, mem_singleton] at hp
    simp [hp]
  | cons x s ih =>
    rw [splitOn_cons_eq_if_modifyHead] at hp
    by_cases hx : x = d
    · rw [if_pos (by simpa using hx), mem_cons] at hp
      rcases hp with rfl | hp
      · simp
      · exact fun c hc => ⟨mem_cons_of_mem _ (ih hp c hc).1, (ih hp c hc).2⟩
    · rw [if_neg (by simpa using hx)] at hp
      obtain ⟨q, qs, hq⟩ := exists_cons_of_ne_nil (splitOn_ne_nil d s)
      rw [hq, modifyHead_cons, mem_cons] at hp
      have hmem : ∀ r ∈ q :: qs, ∀ c ∈ r, c ∈ s ∧ c ≠ d := fun r hr => ih (hq ▸ hr)
      rcases hp with rfl | hp
      · intro c hc
        rcases mem_cons.mp hc with rfl | hc
        · exact ⟨mem_cons_self, hx⟩
        · have := hmem q mem_cons_self c hc
          exact ⟨mem_cons_of_mem _ this.1, this.2⟩
      · intro c hc
        have := hmem p (mem_cons_of_mem _ hp) c hc
        exact ⟨mem_cons_of_mem _ this.1, this.2⟩

/-- The elements of the tokens likewise. -/
theorem of_mem_tokens {p : List α} (hp : p ∈ tokens d s) : p ≠ [] ∧ ∀ c ∈ p, c ∈ s ∧ c ≠ d := by
  obtain ⟨hp, hne⟩ := mem_filter.mp hp
  exact ⟨by simpa using hne, of_mem_splitOn hp⟩

/-- There is no token left. -/
theorem tokens_of_strtok_eq_none (h : strtok d s = none) : tokens d s = [] := by
  unfold strtok at h
  split at h
  case h_1 hnil => rw [← tokens_dropWhile, hnil, tokens_nil]
  case h_2 => exact absurd h (Option.some_ne_none _)

/-- What is left after the elements before a delimiter. -/
theorem dropWhile_ne (d : α) (s : List α) :
    s.dropWhile (· ≠ d) = [] ∨ ∃ t, s.dropWhile (· ≠ d) = d :: t := by
  cases h : s.dropWhile (· ≠ d) with
  | nil => exact .inl rfl
  | cons c t =>
    have hc := List.head?_dropWhile_not (· ≠ d) s
    rw [h] at hc
    obtain rfl : c = d := by simpa using hc
    exact .inr ⟨t, rfl⟩

theorem notMem_takeWhile_ne (d : α) (s : List α) : d ∉ s.takeWhile (· ≠ d) := fun h => by
  simpa using mem_takeWhile_imp h

/-- The next token, and those of the list behind it. -/
theorem tokens_of_strtok {t rest : List α} (h : strtok d s = some (t, rest)) :
    tokens d s = t :: tokens d rest ∧ rest.length < s.length := by
  unfold strtok at h
  split at h
  case h_1 => exact absurd h.symm (Option.some_ne_none _)
  case h_2 c u hcons =>
    have hc : c ≠ d := by
      have := List.head?_dropWhile_not (· = d) s
      simpa [hcons] using this
    have hlength : (c :: u).length ≤ s.length := hcons ▸ length_dropWhile_le _ _
    obtain ⟨rfl, rfl⟩ := Prod.mk.inj (Option.some.inj h)
    have ht : (c :: u).takeWhile (· ≠ d) ≠ [] := by simp [hc]
    have hsplit := takeWhile_append_dropWhile (p := (· ≠ d)) (l := c :: u)
    rw [← tokens_dropWhile, hcons]
    rcases dropWhile_ne d (c :: u) with hnil | ⟨v, hv⟩
    · rw [hnil, append_nil] at hsplit
      rw [hnil, hsplit, tail_nil, tokens_nil]
      refine ⟨tokens_of_notMem (cons_ne_nil _ _) ?_, Nat.zero_lt_of_lt hlength⟩
      exact hsplit ▸ notMem_takeWhile_ne d (c :: u)
    · rw [hv] at hsplit
      rw [hv, tail_cons]
      constructor
      · calc tokens d (c :: u)
            = tokens d ((c :: u).takeWhile (· ≠ d) ++ d :: v) := congrArg _ hsplit.symm
          _ = (c :: u).takeWhile (· ≠ d) :: tokens d v := by
              rw [tokens_append_cons, tokens_of_notMem ht (notMem_takeWhile_ne d _)]
              rfl
      · have hsum := congrArg List.length hsplit
        rw [length_append, length_cons] at hsum
        omega

/-- The first token. -/
theorem map_fst_strtok (d : α) (s : List α) : (strtok d s).map (·.1) = (tokens d s).head? := by
  cases h : strtok d s with
  | none =>
    rw [tokens_of_strtok_eq_none h]
    rfl
  | some p =>
    rw [(tokens_of_strtok h).1]
    rfl

theorem takeWhile_append_cons (hd : d ∉ s) (t : List α) : (s ++ d :: t).takeWhile (· ≠ d) = s := by
  have hs : ∀ c ∈ s, decide (c ≠ d) = true := fun c hc =>
    decide_eq_true fun h => hd (h ▸ hc)
  rw [takeWhile_append_of_pos hs]
  simp

/-- A token at the front, with the delimiter that ends it. -/
theorem strtok_append_cons (hs : s ≠ []) (hd : d ∉ s) (t : List α) :
    strtok d (s ++ d :: t) = some (s, t) := by
  obtain ⟨c, u, rfl⟩ := exists_cons_of_ne_nil hs
  have hc : c ≠ d := fun h => hd (h ▸ mem_cons_self)
  have hfront : (c :: u ++ d :: t).dropWhile (· = d) = c :: (u ++ d :: t) := by
    simp [hc]
  have htake : (c :: (u ++ d :: t)).takeWhile (· ≠ d) = c :: u := takeWhile_append_cons hd t
  have hdrop : (c :: (u ++ d :: t)).dropWhile (· ≠ d) = d :: t := by
    have hsplit := takeWhile_append_dropWhile (p := (· ≠ d)) (l := c :: (u ++ d :: t))
    rw [htake] at hsplit
    exact append_cancel_left (hsplit.trans (cons_append ..).symm)
  rw [strtok, hfront]
  simp only [htake, hdrop, tail_cons]

end HardwareIntel
