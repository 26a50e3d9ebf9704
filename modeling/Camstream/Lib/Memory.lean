import Mathlib.Data.List.Induction
import Mathlib.Logic.Function.Basic
import Mathlib.Order.Basic

/-!
# Copies and loops of assignments in a memory

A memory is a function of the address. `copy` is `memcpy`: it overwrites one range and nothing else.
Where several buffers of one size lie behind each other, `slice_ne` keeps them apart.

A loop nest that fills one memory from another is a list of assignments, in the order in which they are
executed. A `Store` knows which addresses of the source its value is made of, so that a loop can be asked
what it reads (`reads`) as well as what it writes (`run`).
-/

namespace Memory

variable {α : Type*}

/-- Copy `size` cells of `src` to the address `dst`. -/
def copy (m : ℕ → α) (dst : ℕ) (src : ℕ → α) (size : ℕ) : ℕ → α :=
  fun a ↦ if dst ≤ a ∧ a < dst + size then src (a - dst) else m a

/-- What was copied is read back. -/
theorem copy_add_of_lt {k size : ℕ} (h : k < size) (m : ℕ → α) (dst : ℕ) (src : ℕ → α) :
    copy m dst src size (dst + k) = src k := by
  rw [copy, if_pos ⟨Nat.le_add_right _ _, Nat.add_lt_add_left h _⟩, Nat.add_sub_cancel_left]

/-- **The frame of a copy**: outside its range nothing changes. -/
theorem copy_of_notMem {a dst size : ℕ} (h : a < dst ∨ dst + size ≤ a) (m src : ℕ → α) :
    copy m dst src size a = m a := by
  rw [copy, if_neg]
  rintro ⟨hle, hlt⟩
  rcases h with h | h
  · exact absurd hle (Nat.not_le.2 h)
  · exact absurd hlt (Nat.not_lt.2 h)

/-- The slices of two buffers do not meet. -/
theorem slice_ne {capacity i j k l : ℕ} (hij : j ≠ i) (hk : k < capacity) (hl : l < capacity) :
    j * capacity + k ≠ i * capacity + l := by
  have hpos : 0 < capacity := Nat.zero_lt_of_lt hk
  intro he
  have hdiv := congrArg (· / capacity) he
  simp only [Nat.mul_comm _ capacity, Nat.mul_add_div hpos, Nat.div_eq_of_lt hk,
    Nat.div_eq_of_lt hl, Nat.add_zero] at hdiv
  exact hij hdiv

/-- A copy into one slice leaves the others alone. -/
theorem copy_slice_of_ne {capacity i j k size : ℕ} (hij : j ≠ i) (hk : k < capacity)
    (hsize : size ≤ capacity) (m src : ℕ → α) :
    copy m (i * capacity) src size (j * capacity + k) = m (j * capacity + k) := by
  refine copy_of_notMem ?_ m src
  by_contra hmem
  obtain ⟨hle, hlt⟩ := not_or.1 hmem
  refine slice_ne hij hk (l := j * capacity + k - i * capacity) (by omega) ?_
  omega

/-! ### Rows of one width -/

theorem row_div {w row x : ℕ} (hx : x < w) : (row * w + x) / w = row := by
  rw [Nat.mul_comm, Nat.mul_add_div (Nat.zero_lt_of_lt hx), Nat.div_eq_of_lt hx, Nat.add_zero]

theorem row_mod {w row x : ℕ} (hx : x < w) : (row * w + x) % w = x := by
  rw [Nat.mul_comm, Nat.mul_add_mod, Nat.mod_eq_of_lt hx]

/-- A cell is in one row only. -/
theorem row_inj {w row row' x x' : ℕ} (hx : x < w) (hx' : x' < w) (h : row * w + x = row' * w + x') :
    row = row' ∧ x = x' := by
  have hdiv := congrArg (· / w) h
  have hmod := congrArg (· % w) h
  simp only [row_div hx, row_div hx', row_mod hx, row_mod hx'] at hdiv hmod
  exact ⟨hdiv, hmod⟩

theorem row_lt {w h row x : ℕ} (hrow : row < h) (hx : x < w) : row * w + x < w * h := by
  have hle : (row + 1) * w ≤ h * w := Nat.mul_le_mul_right w hrow
  rw [Nat.add_mul, Nat.one_mul] at hle
  rw [Nat.mul_comm w]
  omega

/-- The cells of `h` rows of width `w` are the first `w * h` ones. -/
theorem lt_iff_exists_row {w h a : ℕ} : a < w * h ↔ ∃ row < h, ∃ x < w, a = row * w + x := by
  constructor
  · intro ha
    have hw : 0 < w := Nat.pos_of_ne_zero fun h0 ↦ by
      rw [h0, Nat.zero_mul] at ha
      exact Nat.not_lt_zero a ha
    exact ⟨a / w, Nat.div_lt_of_lt_mul ha, a % w, Nat.mod_lt a hw, (Nat.div_add_mod' a w).symm⟩
  · rintro ⟨row, hrow, x, hx, rfl⟩
    exact row_lt hrow hx

/-- The end of rows of cells: `rows` rows that begin `pitch` apart, each with `cells` cells that are `step`
apart, from `offset` on. -/
def rowsEnd (rows cells pitch step offset : ℕ) : ℕ :=
  if rows = 0 ∨ cells = 0 then 0 else (rows - 1) * pitch + (step * (cells - 1) + offset) + 1

/-- The end is behind every cell, and as far as it has to be. -/
theorem rowsEnd_le_iff {rows cells pitch step offset size : ℕ} :
    rowsEnd rows cells pitch step offset ≤ size ↔
      ∀ r < rows, ∀ x < cells, r * pitch + (step * x + offset) < size := by
  rw [rowsEnd]
  split_ifs with hnone
  · refine iff_of_true (Nat.zero_le _) fun r hr x hx ↦ ?_
    omega
  · obtain ⟨hrows, hcells⟩ := not_or.1 hnone
    constructor
    · intro hle r hr x hx
      have hpitch : r * pitch ≤ (rows - 1) * pitch := Nat.mul_le_mul_right _ (by omega)
      have hstep : step * x ≤ step * (cells - 1) := Nat.mul_le_mul_left _ (by omega)
      omega
    · exact fun hall ↦ hall (rows - 1) (by omega) (cells - 1) (by omega)

/-! ### Assignments -/

/-- The assignment `dst[addr] = value`, where the value is made of the bytes at `reads`. -/
structure Store (α : Type*) where
  addr : ℕ
  reads : List ℕ
  value : (ℕ → α) → α
  value_congr : ∀ {src src' : ℕ → α}, (∀ a ∈ reads, src a = src' a) → value src = value src'

namespace Store

/-- `dst[addr] = src[a]` -/
def byte (addr a : ℕ) : Store α where
  addr := addr
  reads := [a]
  value src := src a
  value_congr h := h a List.mem_cons_self

/-- `dst[addr] = f(src[a], src[b])` -/
def pair (f : α → α → α) (addr a b : ℕ) : Store α where
  addr := addr
  reads := [a, b]
  value src := f (src a) (src b)
  value_congr h := congrArg₂ f (h a List.mem_cons_self) (h b (List.mem_cons_of_mem _ List.mem_cons_self))

/-- `dst[addr] = v` -/
def const (addr : ℕ) (v : α) : Store α where
  addr := addr
  reads := []
  value _ := v
  value_congr _ := rfl

end Store

/-- `memcpy(dst + addr, src + a, size)`, byte by byte. -/
def copyStores (addr a size : ℕ) : List (Store α) :=
  (List.range size).map fun k ↦ .byte (addr + k) (a + k)

theorem mem_copyStores {addr a size : ℕ} {s : Store α} :
    s ∈ copyStores addr a size ↔ ∃ k < size, s = .byte (addr + k) (a + k) := by
  simp only [copyStores, List.mem_map, List.mem_range, eq_comm]

/-- Execute assignments in order. -/
def run (src : ℕ → α) (stores : List (Store α)) (m : ℕ → α) : ℕ → α :=
  stores.foldl (fun m s ↦ Function.update m s.addr (s.value src)) m

/-- The addresses that assignments read. -/
def reads (stores : List (Store α)) : List ℕ :=
  stores.flatMap Store.reads

variable {src src' : ℕ → α} {stores : List (Store α)} {m : ℕ → α}

/-- **An address holds what the assignments to it agree on.** -/
theorem run_eq_of_forall {a : ℕ} {v : α} (hmem : ∃ s ∈ stores, s.addr = a)
    (hall : ∀ s ∈ stores, s.addr = a → s.value src = v) : run src stores m a = v := by
  -- The last assignment to the address counts, so the induction is from the end.
  induction stores using List.reverseRecOn with
  | nil =>
    obtain ⟨s, hs, -⟩ := hmem
    exact absurd hs List.not_mem_nil
  | append_singleton stores s ih =>
    rw [run, List.foldl_append, List.foldl_cons, List.foldl_nil]
    rcases eq_or_ne a s.addr with rfl | hne
    · rw [Function.update_self]
      exact hall s (List.mem_append_right _ List.mem_cons_self) rfl
    · rw [Function.update_of_ne hne]
      refine ih ?_ fun t ht ↦ hall t (List.mem_append_left _ ht)
      obtain ⟨t, ht, rfl⟩ := hmem
      rcases List.mem_append.1 ht with ht | ht
      · exact ⟨t, ht, rfl⟩
      · exact absurd (congrArg Store.addr (List.mem_singleton.1 ht)) hne

/-- **The frame of assignments**: an address that none of them is to keeps what it holds. -/
theorem run_of_forall_ne {a : ℕ} (h : ∀ s ∈ stores, s.addr ≠ a) : run src stores m a = m a := by
  induction stores generalizing m with
  | nil => rfl
  | cons s stores ih =>
    rw [List.forall_mem_cons] at h
    show run src stores (Function.update m s.addr (s.value src)) a = m a
    rw [ih h.2, Function.update_of_ne (Ne.symm h.1)]

theorem run_append (src : ℕ → α) (stores later : List (Store α)) (m : ℕ → α) :
    run src (stores ++ later) m = run src later (run src stores m) :=
  List.foldl_append

/-- If no two assignments are to one address, every assignment is seen in the end. -/
theorem run_addr_of_inj (hinj : ∀ s ∈ stores, ∀ t ∈ stores, s.addr = t.addr → s = t) {s : Store α}
    (hs : s ∈ stores) : run src stores m s.addr = s.value src := by
  refine run_eq_of_forall ⟨s, hs, rfl⟩ fun t ht hta ↦ ?_
  rw [hinj t ht s hs hta]

/-- If the address determines the assignment, every assignment is seen in the end. -/
theorem run_addr {f : ℕ → Store α} (hf : ∀ s ∈ stores, s = f s.addr) {s : Store α} (hs : s ∈ stores) :
    run src stores m s.addr = s.value src :=
  run_addr_of_inj (fun s hs t ht h ↦ by rw [hf s hs, hf t ht, h]) hs

/-- **What is not read does not matter.** -/
theorem run_congr (h : ∀ a ∈ reads stores, src a = src' a) : run src stores m = run src' stores m := by
  induction stores generalizing m with
  | nil => rfl
  | cons s stores ih =>
    have hs : s.value src = s.value src' :=
      s.value_congr fun a ha ↦ h a (List.mem_append_left _ ha)
    show run src stores (Function.update m s.addr (s.value src)) =
      run src' stores (Function.update m s.addr (s.value src'))
    rw [hs]
    exact ih fun a ha ↦ h a (List.mem_append_right _ ha)

theorem mem_reads {a : ℕ} : a ∈ reads stores ↔ ∃ s ∈ stores, a ∈ s.reads :=
  List.mem_flatMap

end Memory
