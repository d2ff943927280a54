import Mathlib.Data.List.Basic

/-!
# Streams in pieces

A converter with a state that is given its input piece by piece is `Streaming` if it does not
matter how the input is cut into pieces. Chains of such converters are of this kind as well
(`Streaming.chain`).
-/

namespace HardwareIntel

universe u v w

section Streaming

variable {σ : Type u} {α : Type v} {β : Type w}

/-- How the input is cut into pieces does not matter. -/
structure Streaming (f : σ → List α → σ × List β) : Prop where
  nil : ∀ s, f s [] = (s, [])
  append : ∀ s xs ys, f s (xs ++ ys) =
    ((f (f s xs).1 ys).1, (f s xs).2 ++ (f (f s xs).1 ys).2)

/-- A chain of converters, each of which gets what the one before it gives. -/
def convertChain (f : σ → List α → σ × List α) : List σ → List α → List σ × List α
  | [], xs => ([], xs)
  | s :: chain, xs =>
    let p := f s xs
    let q := convertChain f chain p.2
    (p.1 :: q.1, q.2)

theorem Streaming.chain {f : σ → List α → σ × List α} (h : Streaming f) :
    Streaming (convertChain f) := by
  constructor
  · intro chain
    induction chain with
    | nil => rfl
    | cons s chain ih => simp [convertChain, h.nil, ih]
  · intro chain
    induction chain with
    | nil => simp [convertChain]
    | cons s chain ih =>
      intro xs ys
      simp only [convertChain, h.append, ih]

end Streaming

end HardwareIntel
