import StyleEngine.Proofs.Json
import StyleEngine.Proofs.Theme.Printable
import StyleEngine.Service

/-!
# Requests that pass

The names in a request for placeholders have their sigils, so none of them is empty.  Whatever a
request for a resolution brings with it can be printed, since it has been read.

    check value = .ok request → name ∈ request.names → isVariable name      (isVariable_of_check)
    accept ResolveRequest.check body = .ok request →
      Fields.Printable request.style                                        (printable_of_accept)
-/

namespace StyleEngine

variable {value : Value}

/-! ## Placeholders -/

namespace PlaceholderRequest

open Schema

theorem isVariable_of_variableNames {names : List String} (h : variableNames value = .ok names) :
    ∀ name ∈ names, isVariable name = true := by
  unfold variableNames at h
  obtain ⟨names', -, h⟩ := bind_eq_ok h
  split at h
  · cases h
  · split at h
    · cases h
    · next hfind =>
      obtain rfl := Except.ok.inj h
      intro name hn
      simpa using List.find?_eq_none.1 hfind name hn

theorem isVariable_of_check {request : PlaceholderRequest} (h : check value = .ok request) :
    ∀ name ∈ request.names, isVariable name = true := by
  unfold check at h
  obtain ⟨fields, -, h⟩ := bind_eq_ok h
  obtain ⟨_, fallback, hkind, -, rfl⟩ := Checked.ap_eq_ok.1 h
  obtain ⟨_, discipline, hnames, -, rfl⟩ := Checked.ap_eq_ok.1 hkind
  obtain ⟨names, hrequired, rfl⟩ := Checked.map_eq_ok hnames
  obtain ⟨_, -, hchecked⟩ := required_eq_ok hrequired
  exact isVariable_of_variableNames hchecked

theorem ne_empty_of_isVariable {name : String} (h : isVariable name = true) : name ≠ "" := by
  rintro rfl
  exact absurd h (by decide)

end PlaceholderRequest

/-! ## Resolution -/

theorem ResolveRequest.printable_of_check {request : ResolveRequest}
    (hp : value.isPrintable = true) (h : check value = .ok request) :
    Fields.Printable request.style ∧ ∀ d, request.theme = some d → d.toTheme.Printable := by
  unfold check at h
  obtain ⟨fields, hfields, h⟩ := bind_eq_ok h
  obtain ⟨_, platform, h₄, -, rfl⟩ := Schema.Checked.ap_eq_ok.1 h
  obtain ⟨_, parent, h₃, -, rfl⟩ := Schema.Checked.ap_eq_ok.1 h₄
  obtain ⟨_, viewport, h₂, -, rfl⟩ := Schema.Checked.ap_eq_ok.1 h₃
  obtain ⟨_, theme, h₁, htheme, rfl⟩ := Schema.Checked.ap_eq_ok.1 h₂
  obtain ⟨style, hstyle, rfl⟩ := Schema.Checked.map_eq_ok h₁
  have hp := Theme.printable_of_record hp hfields
  constructor
  · obtain ⟨v, hv, hmap⟩ := Schema.required_eq_ok hstyle
    exact Theme.printable_of_map (hp.of_get? hv) hmap
  · rintro d rfl
    rcases Schema.optional_eq_ok htheme with hnone | ⟨v, hv, hchecked⟩
    · cases hnone
    · have hv := hp.of_get? hv
      unfold Schema.nullable at hchecked
      split at hchecked
      · cases hchecked
      · obtain ⟨d', hd, hsome⟩ := Schema.Checked.map_eq_ok hchecked
        rw [← Option.some.inj hsome]
        exact Theme.printable_toTheme hv hd

namespace Service

theorem isPrintable_of_dataOf {body : Body} (h : dataOf body = .ok value) :
    value.isPrintable = true := by
  unfold dataOf at h
  split at h
  · cases h
  · split at h
    · next hp => exact Except.ok.inj h ▸ hp
    · cases h
  · split at h
    · cases h
    · split at h
      · next hread => exact Except.ok.inj h ▸ Json.isPrintable_read hread
      · cases h
      · cases h

theorem printable_of_accept {body : Body} {request : ResolveRequest}
    (h : accept ResolveRequest.check body = .ok request) :
    Fields.Printable request.style ∧ ∀ d, request.theme = some d → d.toTheme.Printable := by
  obtain ⟨v, hv, hchecked⟩ := bind_eq_ok h
  exact ResolveRequest.printable_of_check (isPrintable_of_dataOf hv) (mapError_eq_ok hchecked)

end Service

end StyleEngine
