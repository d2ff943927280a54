import HardwareIntel.VideoDecoder.OutputQueue
import HardwareIntel.VideoDecoder.PictureOrder

/-!
# Output by picture order count

What `findOutputByPoc` returns when it ends: a frame that may be taken in the sense of
`Ordered.MayTake`, or nothing.
-/

namespace HardwareIntel.VideoDecoder

open List

namespace Decoder

variable {c : DecoderConfig} {s t : Decoder} {q l window : List ℕ} {head o p : ℕ} {v : PocScan}

/-! ### The result -/

/-- How a scan of the queue `q` ends that expects the count `next`. -/
inductive Ends (s : Decoder) (next : ℤ) (head : ℕ) (q : List ℕ) (w : PocScan) : Prop
  /-- a least frame of a first part of the queue has been found, for one of three reasons -/
  | found {window rest : List ℕ} {m : ℕ} (hq : q = head :: window ++ rest)
      (hwindow : ∀ x ∈ window, s.order x ≠ 0) (hm : m ∈ head :: window)
      (hleast : ∀ x ∈ head :: window, s.order m ≤ s.order x) (houtput : w.output = some m)
      (hnext : w.nextOutputPoc = s.order m + 1)
      (hwhy : s.order m = next ∨ ((head :: window).length : ℤ) = s.outputWindowSize ∨
        ∃ z l, rest = z :: l ∧ s.order z = 0)
  /-- the queue has come to its end -/
  | atEnd {window : List ℕ} (hq : q = head :: window) (hwindow : ∀ x ∈ window, s.order x ≠ 0)
      (hm : w.outputLeastPoc ∈ q) (hleast : ∀ x ∈ q, s.order w.outputLeastPoc ≤ s.order x)
      (houtput : w.output = none) (hnext : w.nextOutputPoc = next)

/-- The variables when the scan has gone through `head :: window` and found the least frame `o`, and
the queue goes on with `rest`. -/
structure Scanned (s : Decoder) (next : ℤ) (head : ℕ) (window rest : List ℕ) (o : ℕ) (v : PocScan) :
    Prop where
  output : v.output = if rest = [] then none else some o
  mem : o ∈ head :: window
  least : ∀ x ∈ head :: window, s.order o ≤ s.order x
  poc : v.poc = s.order o
  leastPoc : v.outputLeastPoc = o
  next : v.nextOutputPoc = next
  count : v.count = (head :: window).length
  lt : v.count < s.outputWindowSize
  window : ∀ x ∈ window, s.order x ≠ 0

theorem finish_of_some {m : ℕ} (h : v.output = some m) :
    (v.finish s).output = some m ∧ (v.finish s).nextOutputPoc = s.order m + 1 := by
  simp [PocScan.finish, h, order]

theorem Scanned.ends {next : ℤ} {rest : List ℕ} (h : Scanned s next head window rest o v)
    (hrest : ∀ window' rest', rest = window' ++ rest' → (∀ x ∈ window', s.order x ≠ 0) →
      ∀ x ∈ window', next ≤ s.order x) :
    ∃ w, s.scanByPoc rest v = some w ∧ Ends s next head (head :: window ++ rest) w := by
  induction rest generalizing window o v with
  | nil =>
    refine ⟨v, rfl, .atEnd (append_nil _) h.window ?_ ?_ h.output h.next⟩
    · rw [append_nil, h.leastPoc]
      exact h.mem
    · rw [append_nil, h.leastPoc]
      exact h.least
  | cons p l ih =>
    have houtput : v.output = some o := h.output
    rw [scanByPoc_cons]
    by_cases hzero : s.order p = 0
    · rw [if_pos ⟨hzero, by rw [houtput]; rfl⟩]
      obtain ⟨hout, hnext⟩ := @finish_of_some s { v with count := v.count + 1 } o houtput
      exact ⟨_, rfl, .found rfl h.window h.mem h.least hout hnext
        (Or.inr (Or.inr ⟨p, l, rfl, hzero⟩))⟩
    · rw [if_neg fun hstop => hzero hstop.1]
      have hnext : (s.look p v).nextOutputPoc = next := by
        rw [look_nextOutputPoc, if_neg hzero, h.next]
      -- the least frame so far, now with `p`
      obtain ⟨m, hmem, hleast, hpoc, hout, hleastPoc⟩ : ∃ m, m ∈ head :: (window ++ [p]) ∧
          (∀ x ∈ head :: (window ++ [p]), s.order m ≤ s.order x) ∧
          (s.look p v).poc = s.order m ∧ (s.look p v).output = some m ∧
          (s.look p v).outputLeastPoc = m := by
        by_cases hlt : s.order p < v.poc
        · have hle : next ≤ s.order p := hrest [p] l rfl (by simpa using hzero) p (by simp)
          obtain ⟨hpoc, hout, hleastPoc⟩ := look_of_lt (s := s) hlt (by rwa [if_neg hzero, h.next])
          refine ⟨p, by simp, fun x hx => ?_, hpoc, hout, hleastPoc⟩
          rw [← cons_append, mem_append, mem_singleton] at hx
          rcases hx with hx | rfl
          · exact ((h.poc ▸ hlt).trans_le (h.least x hx)).le
          · exact le_refl _
        · obtain ⟨hpoc, hout, hleastPoc⟩ := look_of_le (s := s) (not_lt.mp hlt)
          refine ⟨o, ?_, fun x hx => ?_, hpoc.trans h.poc, hout.trans houtput,
            hleastPoc.trans h.leastPoc⟩
          · rw [← cons_append]
            exact mem_append_left _ h.mem
          · rw [← cons_append, mem_append, mem_singleton] at hx
            rcases hx with hx | rfl
            · exact h.least x hx
            · exact h.poc ▸ not_lt.mp hlt
      have hwindow : ∀ x ∈ window ++ [p], s.order x ≠ 0 := by
        intro x hx
        rw [mem_append, mem_singleton] at hx
        rcases hx with hx | rfl
        · exact h.window x hx
        · exact hzero
      have hlength : ((head :: (window ++ [p])).length : ℤ) = v.count + 1 := by
        rw [h.count, length_cons, length_append, length_cons]
        simp
      have hq : head :: window ++ p :: l = head :: (window ++ [p]) ++ l := by simp
      rw [hpoc, hnext, look_count, hq]
      split
      · rename_i hstop
        rw [hout]
        obtain ⟨hout', hnext'⟩ := @finish_of_some s _ m hout
        refine ⟨_, rfl, .found rfl hwindow hmem hleast hout' hnext' ?_⟩
        exact hstop.imp_right fun hfull => Or.inl (hlength.trans hfull)
      · rename_i hgo
        obtain ⟨hcount', hpoc', hleast', hnext', hout'⟩ := goOn_fields l (s.look p v)
        refine ih (o := m) ⟨hout'.trans (by rw [hout]), hmem, hleast, hpoc'.trans hpoc,
          hleast'.trans hleastPoc, hnext'.trans hnext, ?_, ?_, hwindow⟩ ?_
        · rw [hcount', look_count, hlength]
        · rw [hcount', look_count]
          have := h.lt
          omega
        · rintro window' rest' rfl hwindow' x hx
          refine hrest (p :: window') rest' rfl (fun y hy => ?_) x (mem_cons_of_mem _ hx)
          rcases mem_cons.mp hy with rfl | hy
          · exact hzero
          · exact hwindow' y hy

/-- A scan of a queue whose first sequence has only counts that are expected. -/
theorem scanByPoc_ends {next : ℤ} (hwindow : 1 ≤ s.outputWindowSize)
    (hmax : s.order head < maximumPoc)
    (hexpected : ∀ window rest, l = window ++ rest → (∀ x ∈ window, s.order x ≠ 0) →
      ∀ x ∈ head :: window, (if s.order head = 0 then minimumPoc else next) ≤ s.order x) :
    ∃ w, s.scanByPoc (head :: l) ⟨0, maximumPoc, none, head, next⟩ = some w ∧
      Ends s (if s.order head = 0 then minimumPoc else next) head (head :: l) w := by
  obtain ⟨hpoc, hout, hleastPoc⟩ := @look_of_lt s head ⟨0, maximumPoc, none, head, next⟩ hmax
    (hexpected [] l rfl (by simp) head (by simp))
  have hnext := @look_nextOutputPoc s head ⟨0, maximumPoc, none, head, next⟩
  generalize (if s.order head = 0 then minimumPoc else next) = expected at hexpected hnext ⊢
  rw [scanByPoc_cons, if_neg (by simp), hpoc, hnext, look_count]
  dsimp only
  split
  · rename_i hstop
    rw [hout]
    obtain ⟨hout', hnext'⟩ := @finish_of_some s _ head hout
    refine ⟨_, rfl, @Ends.found _ _ _ _ _ [] l head rfl (by simp) (by simp) (by simp) hout' hnext' ?_⟩
    exact hstop.imp_right fun hfull => Or.inl (by simpa using hfull)
  · rename_i hgo
    rw [not_or] at hgo
    obtain ⟨hcount', hpoc', hleast', hnext', hout'⟩ :=
      goOn_fields l (s.look head ⟨0, maximumPoc, none, head, next⟩)
    have hscanned : Scanned s expected head [] l head
        (if l = [] then { s.look head ⟨0, maximumPoc, none, head, next⟩ with output := none }
          else s.look head ⟨0, maximumPoc, none, head, next⟩) := by
      refine ⟨hout'.trans (by rw [hout]), by simp, by simp, hpoc'.trans hpoc,
        hleast'.trans hleastPoc, ?_, ?_, ?_, by simp⟩
      · rw [hnext', hnext]
      · rw [hcount', look_count]
        rfl
      · rw [hcount', look_count]
        dsimp only
        omega
    exact hscanned.ends fun window' rest' hl hnonzero x hx =>
      hexpected window' rest' hl hnonzero x (mem_cons_of_mem _ hx)

end Decoder

end HardwareIntel.VideoDecoder
