import StyleEngine.Proofs.Registry.Bindings
import StyleEngine.Proofs.Registry.Retrying

/-!
# Color requests

A request for a new color tries the numbers from the next one on and takes the first whose token
stands for no name.  The tokens of the numbers are all different, so the search ends after one
round more than there are bindings.  While the source gives no color token, no number is ever
skipped: the colors of a run are numbered one by one.

    (∀ j < k, colorToken (id + j) is bound) → colorToken (id + k) is not →
      ColorSearch names id (k + 1) (id + k)                              (colorSearch_of_bound)
    Numbered r made → Numbered (act r a) (made + one if a color is bound) (numbered_act)
    (newBindings .color r actions)[i]? = some (n, p) →
      p = colorToken (made + i + 1)                                      (numbered_run)
-/

namespace StyleEngine.Registry

/-! ## The search -/

/-- Trying one number after the other, from a first one on: how many rounds it takes, and the
number that is found. -/
inductive ColorSearch (names : Fields String) : Nat → Nat → Nat → Prop where
  | found {id : Nat} (h : colorToken id ∉ Fields.keys names) : ColorSearch names id 1 id
  | next {id rounds i : Nat} (h : colorToken id ∈ Fields.keys names)
      (rest : ColorSearch names (id + 1) rounds i) : ColorSearch names id (rounds + 1) i

theorem colorSearch_of_bound {names : Fields String} {id k : Nat}
    (hbound : ∀ j < k, colorToken (id + j) ∈ Fields.keys names)
    (hfree : colorToken (id + k) ∉ Fields.keys names) :
    ColorSearch names id (k + 1) (id + k) := by
  induction k generalizing id with
  | zero => exact .found hfree
  | succ k ih =>
    have hshift : ∀ j, id + 1 + j = id + (j + 1) := fun j => by omega
    refine .next (hbound 0 (by omega)) ?_
    rw [← hshift k]
    refine ih (fun j hj => ?_) ?_
    · rw [hshift]
      exact hbound (j + 1) (by omega)
    · rw [hshift]
      exact hfree

/-- What a color gets is the token of the first free number, which is near: all numbers before it
have a binding each. -/
theorem allocate_color_eq (r : Registry) :
    ∃ k ≤ r.names.length, (∀ j < k, colorToken (r.colorId + j) ∈ Fields.keys r.names) ∧
      colorToken (r.colorId + k) ∉ Fields.keys r.names ∧
      r.allocate .color =
        (.ok (colorToken (r.colorId + k)), { r with colorId := r.colorId + k + 1 }) := by
  obtain ⟨k, hk, he, hbound, -⟩ := freeColorId_spec r.names r.names.length r.colorId
  have hfree := freeColorId_unbound r.names r.colorId
  rw [he] at hfree
  refine ⟨k, hk, fun j hj => Fields.has_iff_mem_keys.1 (hbound j hj), hfree, ?_⟩
  simp only [allocate, he]

/-! ## Spelling -/

/-- Six hexadecimal digits are enough for the numbers below 16 ^ 6. -/
theorem toList_colorToken_of_lt {id : Nat} (h : id < 16777216) :
    ∃ digits, (colorToken id).toList = '#' :: digits ∧ digits.length = 8 ∧
      ∀ c ∈ digits, c ∈ "0123456789ABCDEF".toList := by
  have hdigit : ∀ d < 16, (Nat.digitChar d).toUpper ∈ "0123456789ABCDEF".toList := by decide
  have hlen : (Nat.toDigits 16 id).length ≤ 6 :=
    (Nat.length_toDigits_le_iff (by decide) (by decide)).2 (by simpa using h)
  unfold colorToken
  rw [String.toList_ofList]
  refine ⟨_, rfl, ?_, ?_⟩
  · simp only [List.length_append, List.length_replicate, List.length_map, List.length_cons,
      List.length_nil]
    omega
  · intro c hc
    simp only [List.mem_append, List.mem_replicate, List.mem_map, List.mem_cons, List.not_mem_nil,
      or_false] at hc
    rcases hc with (⟨-, rfl⟩ | ⟨e, he, rfl⟩) | rfl | rfl
    · decide
    · obtain ⟨d, hd, rfl⟩ := mem_toDigits (by decide) he
      exact hdigit d hd
    · decide
    · decide

/-! ## Numbering -/

/-- So many colors have been made since the last reset, and only their numbers are bound. -/
structure Numbered (r : Registry) (made : Nat) : Prop where
  next : r.colorId = made + 1
  bound : ∀ id, colorToken id ∈ Fields.keys r.names → id ≤ made

variable {r r' : Registry} {made : Nat}

theorem numbered_reset (r : Registry) : Numbered r.reset 0 :=
  ⟨rfl, fun _ h => absurd h List.not_mem_nil⟩

/-- The next number is free, so it is the one that is found. -/
theorem Numbered.allocate_color (h : Numbered r made) :
    r.allocate .color = (.ok (colorToken (made + 1)), { r with colorId := made + 2 }) := by
  obtain ⟨k, -, hbound, -, ha⟩ := allocate_color_eq r
  rw [h.next] at hbound ha
  cases k with
  | zero => exact ha
  | succ k =>
    have := h.bound _ (hbound 0 (Nat.succ_pos k))
    omega

/-- Bindings of other tokens than those of later colors keep the numbering. -/
theorem Numbered.bind (h : Numbered r made) (n : String) {p : String} {now : Nat}
    (hmade : made ≤ now) (hnext : r'.colorId = now + 1) (hnames : r'.names = r.names)
    (hp : ∀ id, p = colorToken id → id ≤ now) : Numbered (r'.bind n p) now := by
  refine ⟨hnext, fun id hid => ?_⟩
  have hid : colorToken id ∈ Fields.keys (Fields.set r'.names p (stripSigil n)) := hid
  rw [Fields.keys_set, hnames, List.mem_append] at hid
  rcases hid with hid | hid
  · exact Nat.le_trans (h.bound id hid) hmade
  · exact hp id (List.mem_singleton.1 (List.mem_of_mem_filter hid)).symm

/-- Between two states of a registry the source gives no color token. -/
def NoColorsBetween (r r' : Registry) : Prop :=
  ∀ j, r.tokensUsed ≤ j → j < r'.tokensUsed → ∀ id, r.source.token j ≠ .ok (colorToken id)

/-- Making a length leaves the numbers of the colors alone. -/
theorem colorId_allocate_length (r : Registry) :
    (r.allocate .length).2.colorId = r.colorId := by
  rcases allocate_length_cases r with ⟨k, -, -, -, ha⟩ | ⟨-, ha⟩ <;> rw [ha]

theorem numbered_act (h : Numbered r made) {a : Action} (ha : a ≠ .reset)
    (hsource : NoColorsBetween r (act r a)) :
    Numbered (act r a) (made + (newBinding? .color r a).toList.length) ∧
      ∀ n p, newBinding? .color r a = some (n, p) → p = colorToken (made + 1) := by
  rcases act_cases r a with ⟨rfl, -⟩ | ⟨hnone, hr⟩ | ⟨d, n, p, r', -, hd, hr, hnew⟩
  · exact absurd rfl ha
  · rw [hnone]
    refine ⟨?_, nofun⟩
    rcases hr with hr | ⟨d, e, r', hd, hr⟩
    · rw [hr]
      exact h
    · cases d with
      | color =>
        rw [h.allocate_color] at hd
        cases hd
      | length =>
        have hcolor := colorId_allocate_length r
        have hnames := (allocate_sameBindings r .length).names
        rw [hd] at hcolor hnames
        rw [hr]
        exact ⟨hcolor.trans h.next, fun id hid => h.bound id (hnames ▸ hid)⟩
  · rw [hr, hnew]
    cases d with
    | color =>
      rw [h.allocate_color] at hd
      obtain ⟨hp, rfl⟩ := Prod.mk.inj hd
      have hp : colorToken (made + 1) = p := Except.ok.inj hp
      subst hp
      refine ⟨h.bind n (Nat.le_succ made) rfl rfl fun id hid => ?_, fun m q hq => ?_⟩
      · exact Nat.le_of_eq (colorToken_injective hid).symm
      · exact (Prod.mk.inj (Option.some.inj hq)).2.symm
    | length =>
      have hcolor := colorId_allocate_length r
      have hnames := (allocate_sameBindings r .length).names
      have htoken : ∃ i, r.tokensUsed ≤ i ∧ i < r'.tokensUsed ∧ r.source.token i = .ok p := by
        have := (allocate_length (r := r) (p := p) (by rw [hd])).1
        rwa [hd] at this
      rw [hd] at hcolor hnames
      obtain ⟨i, hle, hlt, hp⟩ := htoken
      rw [hr] at hsource
      refine ⟨h.bind n (Nat.le_refl made) (hcolor.trans h.next) hnames fun id hid => ?_, nofun⟩
      exact absurd (hid ▸ hp) (hsource i hle hlt id)

/-- The colors that are made are numbered one after the other, whatever lengths are made between
them. -/
theorem numbered_run (h : Numbered r made) {actions : List Action} (ha : .reset ∉ actions)
    (hsource : NoColorsBetween r (run r actions)) {i : Nat} {n p : String}
    (hi : (newBindings .color r actions)[i]? = some (n, p)) : p = colorToken (made + i + 1) := by
  induction actions generalizing r made i with
  | nil => cases hi
  | cons a actions ih =>
    rw [List.mem_cons, not_or] at ha
    have hhere : NoColorsBetween r (act r a) := fun j hle hlt =>
      hsource j hle (Nat.lt_of_lt_of_le hlt (tokensUsed_run (act r a) actions))
    have hlater : NoColorsBetween (act r a) (run (act r a) actions) := fun j hle hlt id => by
      rw [source_act]
      exact hsource j (Nat.le_trans (tokensUsed_act r a) hle) hlt id
    obtain ⟨hnumbered, hfirst⟩ := numbered_act h (fun he => ha.1 he.symm) hhere
    rcases getElem?_newBindings hi with ⟨hnew, rfl⟩ | ⟨j, rfl, hj⟩
    · exact hfirst n p hnew
    · rw [ih hnumbered ha.2 hlater hj, Nat.add_assoc made]

/-- A request for a new color ends after at most one round more than there are bindings, at the
least number from the next one on whose token is free; the name is bound to that token, and the
number after it is the next.  Since a reset, as long as the source has given no color token, the
colors are numbered from 1 on, whatever lengths have come between them.  Tokens of different
numbers differ, and those of numbers below 16 ^ 6 have eight hexadecimal digits. -/
theorem color_request_takes_least_free_number (source : TokenSource) (actions : List Action)
    (fallback : Value) :
    let r := run (start source) actions
    (∀ n, n ≠ "" → r.placeholderFor? n = none →
      ∃ i rounds, ColorSearch r.names r.colorId rounds i ∧ rounds ≤ r.size + 1 ∧
        (r.colorId ≤ i ∧ ¬ Taken r (colorToken i)) ∧
        (∀ j, r.colorId ≤ j → ¬ Taken r (colorToken j) → i ≤ j) ∧
        r.encode .color (.text n) fallback =
          (.ok (withFallback (colorToken i) fallback.isTruthy),
            { r with
              placeholders := r.placeholders ++ [(n, colorToken i)]
              names := r.names ++ [(colorToken i, stripSigil n)]
              colorId := i + 1 })) ∧
    (∀ later : List Action, .reset ∉ later → NoColorsBetween r.reset (run r.reset later) →
      ∀ k n p, (newBindings .color r.reset later)[k]? = some (n, p) → p = colorToken (k + 1)) ∧
    (∀ i j, colorToken i = colorToken j → i = j) ∧
    ∀ i < 16777216, ∃ digits, (colorToken i).toList = '#' :: digits ∧ digits.length = 8 ∧
      ∀ c ∈ digits, c ∈ "0123456789ABCDEF".toList := by
  intro r
  have hmirrored : Mirrored r := mirrored_run source actions
  have hsize : r.names.length = r.size := by
    rw [hmirrored.names_eq, List.length_map]
    rfl
  refine ⟨fun n hn hnew => ?_, fun later hreset hsource k n p hk => ?_,
    fun i j h => colorToken_injective h, fun i hi => toList_colorToken_of_lt hi⟩
  · obtain ⟨k, hk, hbound, hfree, ha⟩ := allocate_color_eq r
    have hnone : n ∉ Fields.keys r.placeholders := Fields.get?_eq_none_iff.1 hnew
    have hanswer := encode_of_allocated hn hnew ha fallback
    rw [bind_eq (r := { r with colorId := r.colorId + k + 1 }) hnone hfree] at hanswer
    refine ⟨r.colorId + k, k + 1, colorSearch_of_bound hbound hfree, by omega,
      ⟨Nat.le_add_right _ _, fun h => hfree ((hmirrored.taken_iff _).1 h)⟩, fun j hj hfreej => ?_,
      hanswer⟩
    -- a smaller number would be one of those that have been tried in vain
    by_contra hlt
    refine hfreej ((hmirrored.taken_iff _).2 ?_)
    rw [show j = r.colorId + (j - r.colorId) by omega]
    exact hbound _ (by omega)
  · have hp := numbered_run (numbered_reset r) hreset hsource hk
    rwa [Nat.zero_add] at hp

/-- A source whose tokens look like the first color. -/
def lookalike : TokenSource where
  label := "tokens"
  token _ := .ok (colorToken 1)

/-- The first length takes the token of the first color, so the first color has the second one. -/
theorem ink_passes_lookalike :
    let r := run (start lookalike) [.encode .length (.text "$gap") .null]
    r.placeholderFor? "$ink" = none ∧
      r.encode .color (.text "$ink") .null =
        (.ok "#00000200", { r with
          placeholders := [("$gap", "#00000100"), ("$ink", "#00000200")]
          names := [("#00000100", "gap"), ("#00000200", "ink")]
          colorId := 3 }) := by
  intro r
  have hnew : r.placeholderFor? "$ink" = none := by decide +kernel
  have htaken : ∀ t, Taken r t ↔ t ∈ Fields.keys r.names := (mirrored_run lookalike _).taken_iff
  have hfirst : Taken r (colorToken 1) := (htaken _).2 (by decide +kernel)
  have hsecond : ¬ Taken r (colorToken 2) := fun h =>
    absurd ((htaken _).1 h) (by decide +kernel)
  obtain ⟨hfound, -⟩ := color_request_takes_least_free_number lookalike
    [.encode .length (.text "$gap") .null] .null
  obtain ⟨i, -, -, -, ⟨hle, hfree⟩, hleast, hanswer⟩ := hfound "$ink" (by decide) hnew
  have hi : i = 2 := by
    have hle : 1 ≤ i := hle
    have hne : i ≠ 1 := fun he => hfree (he ▸ hfirst)
    have hupper : i ≤ 2 := hleast 2 (by decide +kernel) hsecond
    omega
  subst hi
  exact ⟨hnew, hanswer⟩

end StyleEngine.Registry
