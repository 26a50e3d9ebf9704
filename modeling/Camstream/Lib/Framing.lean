import Mathlib.Data.List.Basic
import Mathlib.Data.List.Infix

/-!
# Self-delimiting packets

Packets that say themselves where they end, laid end to end. `Splits l packets rest` is a beginning of `l` as
packets; it is the longest one when no packet stands at the beginning of `rest` (`Splits.isPrefix`).
-/

namespace Framing

variable {α : Type*} {IsPacket : List α → Prop} {l l' rest rest' : List α} {ps ps' : List (List α)}

/-- No packet can be told from another one only by what comes behind it. -/
def SelfDelimiting (IsPacket : List α → Prop) : Prop :=
  ∀ p p' l l', IsPacket p → IsPacket p' → p ++ l = p' ++ l' → p = p'

/-- The text is these packets and something else. -/
structure Splits (IsPacket : List α → Prop) (l : List α) (ps : List (List α)) (rest : List α) : Prop where
  eq : l = ps.flatten ++ rest
  packet : ∀ p ∈ ps, IsPacket p

/-- No packet stands at the beginning. -/
def Stuck (IsPacket : List α → Prop) (l : List α) : Prop :=
  ∀ p, IsPacket p → ¬ p <+: l

theorem Splits.nil (l : List α) : Splits IsPacket l [] l :=
  ⟨rfl, fun _ h ↦ absurd h List.not_mem_nil⟩

theorem Splits.cons {p : List α} (hp : IsPacket p) (h : Splits IsPacket l ps rest) :
    Splits IsPacket (p ++ l) (p :: ps) rest where
  eq := by rw [h.eq, List.flatten_cons, List.append_assoc]
  packet := List.forall_mem_cons.2 ⟨hp, h.packet⟩

/-- Packets to the end, and more packets. -/
theorem Splits.append (h : Splits IsPacket l ps []) (h' : Splits IsPacket l' ps' rest) :
    Splits IsPacket (l ++ l') (ps ++ ps') rest where
  eq := by rw [h.eq, h'.eq, List.append_nil, List.flatten_append, List.append_assoc]
  packet := fun p hp ↦ (List.mem_append.1 hp).elim (h.packet p) (h'.packet p)

/-- **The longest splitting**: every other one is a beginning of it. -/
theorem Splits.isPrefix (hself : SelfDelimiting IsPacket) (h : Splits IsPacket l ps rest)
    (hstuck : Stuck IsPacket rest) (h' : Splits IsPacket l ps' rest') : ps' <+: ps := by
  induction ps' generalizing l ps with
  | nil => exact List.nil_prefix
  | cons p' ps' ih =>
    have hp' := h'.packet p' List.mem_cons_self
    have hl := h.eq.symm.trans h'.eq
    rw [List.flatten_cons, List.append_assoc] at hl
    cases ps with
    | nil => exact absurd ⟨_, hl.symm⟩ (hstuck p' hp')
    | cons p ps =>
      rw [List.flatten_cons, List.append_assoc] at hl
      obtain rfl := hself p p' _ _ (h.packet p List.mem_cons_self) hp' hl
      refine List.cons_prefix_cons.2 ⟨rfl, ih ⟨rfl, ?_⟩ ⟨List.append_cancel_left hl, ?_⟩⟩
      · exact fun q hq ↦ h.packet q (List.mem_cons_of_mem _ hq)
      · exact fun q hq ↦ h'.packet q (List.mem_cons_of_mem _ hq)

end Framing
