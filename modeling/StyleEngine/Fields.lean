/-!
# Ordered maps

A map from names that keeps the order in which its names first arrived.  `set` writes a present
name in place and appends a new one, so nothing else moves.

    get? (set m k v) k = some v                                        (get?_set_self)
    k' ≠ k → get? (set m k v) k' = get? m k'                           (get?_set_of_ne)
    k ∈ keys m → keys (set m k v) = keys m                             (keys_set_of_mem)
    k ∉ keys m → keys (set m k v) = keys m ++ [k]                      (keys_set_of_not_mem)
-/

namespace StyleEngine

abbrev Fields (α : Type) := List (String × α)

namespace Fields

variable {α : Type}

/-! ## Operations -/

def keys (m : Fields α) : List String := m.map (·.1)

def get? : Fields α → String → Option α
  | [], _ => none
  | (k', v) :: rest, k => if k' = k then some v else get? rest k

def has (m : Fields α) (k : String) : Bool := (get? m k).isSome

def set : Fields α → String → α → Fields α
  | [], k, v => [(k, v)]
  | (k', v') :: rest, k, v => if k' = k then (k, v) :: rest else (k', v') :: set rest k v

/-- Writes a name only if it is new. -/
def setDefault (m : Fields α) (k : String) (v : α) : Fields α :=
  if has m k then m else m ++ [(k, v)]

def erase : Fields α → String → Fields α
  | [], _ => []
  | (k', v) :: rest, k => if k' = k then rest else (k', v) :: erase rest k

/-- Writes every entry of `n` into `m`, in the order of `n`. -/
def merge (m n : Fields α) : Fields α := n.foldl (fun m e => set m e.1 e.2) m

/-! ## Lemmas -/

theorem get?_set_self (m : Fields α) (k : String) (v : α) : get? (set m k v) k = some v := by
  induction m with
  | nil => simp [set, get?]
  | cons e rest ih =>
    unfold set
    split
    · simp [get?]
    · next h => simp [get?, h, ih]

theorem get?_set_of_ne (m : Fields α) (k k' : String) (v : α) (h : k' ≠ k) :
    get? (set m k v) k' = get? m k' := by
  induction m with
  | nil => simp [set, get?, h.symm]
  | cons e rest ih =>
    unfold set
    split
    · next he => simp [get?, he, h.symm]
    · simp only [get?, ih]

theorem keys_set_of_mem (m : Fields α) (k : String) (v : α) (h : k ∈ keys m) :
    keys (set m k v) = keys m := by
  induction m with
  | nil => cases h
  | cons e rest ih =>
    unfold set
    split
    · next he => simp [keys, he]
    · next he =>
      have hr : k ∈ keys rest := by
        rcases List.mem_cons.1 h with h | h
        · exact absurd h.symm he
        · exact h
      show e.1 :: keys (set rest k v) = e.1 :: keys rest
      rw [ih hr]

theorem keys_set_of_not_mem (m : Fields α) (k : String) (v : α) (h : k ∉ keys m) :
    keys (set m k v) = keys m ++ [k] := by
  induction m with
  | nil => rfl
  | cons e rest ih =>
    have he : e.1 ≠ k := fun he => h (by simp [keys, he])
    have hr : k ∉ keys rest := fun hr => h (List.mem_cons_of_mem _ hr)
    unfold set
    rw [if_neg he]
    show e.1 :: keys (set rest k v) = e.1 :: (keys rest ++ [k])
    rw [ih hr]

end Fields

end StyleEngine
