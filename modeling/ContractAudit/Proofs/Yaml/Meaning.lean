import ContractAudit.Yaml.Scalar

/-!
# Texts among meanings

A scalar that means text means its own text.
-/

namespace ContractAudit.Yaml

theorem intMeaning?_ne_text {s t : String} : intMeaning? s ≠ some (.text t) := by
  unfold intMeaning?
  dsimp only
  repeat' split
  all_goals simp

theorem plainMeaning_eq_text {s t : String} (h : plainMeaning s = .text t) : t = s := by
  unfold plainMeaning at h
  split at h
  · cases h
  · split at h
    · cases h
    · split at h
      · rename_i m hm
        subst h
        exact absurd hm intMeaning?_ne_text
      · split at h
        · cases h; rfl
        · split at h <;> cases h
          rfl

theorem CoreTag.meaning?_ne_text (tag : CoreTag) (s t : String) : tag.meaning? s ≠ some (.text t) := by
  cases tag with
  | null =>
      unfold CoreTag.meaning?
      dsimp only
      split <;> simp
  | bool => simp [CoreTag.meaning?]
  | int => exact intMeaning?_ne_text
  | float => simp [CoreTag.meaning?]

theorem scalarMeaning_eq_text {tag : Option String} {style : ScalarStyle} {s t : String}
    (h : scalarMeaning tag style s = .ok (.text t)) : t = s := by
  unfold scalarMeaning at h
  split at h
  · split at h
    · exact plainMeaning_eq_text (by simpa using h)
    · cases h; rfl
  · split at h
    · rename_i tag core hcore
      split at h
      · rename_i m hm
        cases h
        exact absurd hm (CoreTag.meaning?_ne_text _ _ _)
      · cases h
    · split at h
      · exact plainMeaning_eq_text (by simpa using h)
      · cases h; rfl

end ContractAudit.Yaml
