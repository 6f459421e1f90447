import LocalPlay.Settings.File

/-!
# What accepted settings keep to

A record is read field by field, from an object in any order or from an array, and starts from its
default. So what is true of the default and kept by every field, whatever is read for it, is true of
the record. The passphrase of settings that were read from a file fits its field on the wire, since
the default does and another one is refused.
-/

namespace LocalPlay

namespace Json

variable {σ α : Type} {P : σ → Prop} {cs rest : Rest}

/-- Whatever is read for the field, what was true of the record stays true. -/
def Field.Keeps (P : σ → Prop) (field : Field σ) : Prop :=
  ∀ cs rest set, field.reader.read cs = .ok (set, rest) → ∀ value, P value → P (set value)

theorem Field.keeps_of {name : String} {reader : Reader α} {set : α → σ → σ}
    (hset : ∀ {cs a rest}, reader.read cs = .ok (a, rest) → ∀ value, P value → P (set a value)) :
    (Field.of name reader set).Keeps P := by
  intro cs rest f hread value hvalue
  obtain ⟨⟨a, after⟩, ha, hf⟩ := ok_of_map hread
  obtain ⟨rfl, -⟩ := Prod.mk.inj hf
  exact hset ha value hvalue

theorem Reader.of_ofText {fit : String → Except Flaw α} {a : α}
    (hread : (Reader.ofText fit).read cs = .ok (a, rest)) : ∃ text, fit text = .ok a := by
  simp only [Reader.ofText, Reader.ofToken] at hread
  split at hread
  · cases hread
  · obtain ⟨found, hfit, hfound⟩ := ok_of_map hread
    obtain ⟨rfl, -⟩ := Prod.mk.inj hfound
    split at hfit
    · rename_i text _
      exact ⟨text, hfit⟩
    · cases hfit

namespace Record

variable {fields : List (Field σ)}

theorem keeps_member (hfields : ∀ field ∈ fields, field.Keeps P) {progress next : Progress σ}
    (hread : member fields progress cs = .ok (next, rest)) (hvalue : P progress.value) :
    P next.value := by
  obtain ⟨inside, -, hread⟩ := ok_of_bind hread
  obtain ⟨⟨name, outside⟩, -, hread⟩ := ok_of_bind hread
  dsimp only at hread
  split at hread
  · rename_i field hfind
    split at hread
    · cases hread
    · obtain ⟨after, -, hread⟩ := ok_of_bind hread
      obtain ⟨⟨set, last⟩, hset, hread⟩ := ok_of_bind hread
      obtain ⟨rfl, -⟩ := Prod.mk.inj (Except.ok.inj hread)
      exact hfields field (List.mem_of_find?_eq_some hfind) _ _ _ hset _ hvalue
  · obtain ⟨after, -, hread⟩ := ok_of_bind hread
    obtain ⟨last, -, hread⟩ := ok_of_bind hread
    obtain ⟨rfl, -⟩ := Prod.mk.inj (Except.ok.inj hread)
    exact hvalue

theorem keeps_members (hfields : ∀ field ∈ fields, field.Keeps P) {progress : Progress σ}
    {value : σ} (hread : members fields progress cs = .ok (value, rest))
    (hvalue : P progress.value) : P value := by
  fun_induction members fields progress cs with
  | case1 => cases hread
  | case2 => cases hread
  | case3 progress cs next middle hmember =>
    obtain ⟨rfl, -⟩ := Prod.mk.inj (Except.ok.inj hread)
    exact keeps_member hfields hmember hvalue
  | case4 progress cs next middle hmember after hmore _ _ ih =>
    exact ih hread (keeps_member hfields hmember hvalue)

theorem keeps_elements (hfields : ∀ field ∈ fields, field.Keeps P) {value result : σ}
    (hread : elements value fields cs = .ok (result, rest)) (hvalue : P value) : P result := by
  induction fields generalizing value cs with
  | nil => cases hread
  | cons field fields ih =>
    obtain ⟨hfield, hfields⟩ := List.forall_mem_cons.mp hfields
    rw [elements] at hread
    split at hread
    · cases hread
    · rename_i set middle hset
      have hnext := hfield _ _ _ hset value hvalue
      split at hread
      · cases hread
      · obtain ⟨rfl, -⟩ := Prod.mk.inj (Except.ok.inj hread)
        exact hnext
      · exact ih hfields hread hnext

/-- What every field keeps is true of the record if it is true of the default. -/
theorem keeps_reader (hfields : ∀ field ∈ fields, field.Keeps P) {default value : σ}
    (hread : (reader fields default).read cs = .ok (value, rest)) (hdefault : P default) :
    P value := by
  rw [reader] at hread
  dsimp only at hread
  split at hread
  · cases hread
  · split at hread
    · obtain ⟨rfl, -⟩ := Prod.mk.inj (Except.ok.inj hread)
      exact hdefault
    · exact keeps_members hfields hread hdefault
  · split at hread
    · obtain ⟨rfl, -⟩ := Prod.mk.inj (Except.ok.inj hread)
      exact hdefault
    · exact keeps_elements hfields hread hdefault
  · cases hread

end Record

end Json

namespace Settings

open Json (Field Reader)

theorem passphraseFits_of_read {cs rest : Json.Rest} {text : String}
    (hread : fittingPassphrase.read cs = .ok (text, rest)) : Wire.passphraseFits text = true := by
  obtain ⟨found, hfit⟩ := Reader.of_ofText hread
  split at hfit
  · rename_i hfits
    obtain rfl := Except.ok.inj hfit
    exact hfits
  · cases hfit

theorem passphraseFits_of_reader {cs rest : Json.Rest} {settings : Settings}
    (hread : reader.read cs = .ok (settings, rest)) :
    Wire.passphraseFits settings.passphrase = true := by
  let P (settings : Settings) : Prop := Wire.passphraseFits settings.passphrase = true
  have hother {α : Type} {name : String} {reader : Reader α} {set : α → Settings → Settings}
      (hset : ∀ a settings, (set a settings).passphrase = settings.passphrase) :
      (Field.of name reader set).Keeps P := by
    refine Field.keeps_of fun {_ a _} _ settings hfits => ?_
    show Wire.passphraseFits (set a settings).passphrase = true
    rw [hset]
    exact hfits
  have hpassphrase : (Field.of "passphrase" fittingPassphrase fun passphrase settings =>
      ({ settings with passphrase } : Settings)).Keeps P := by
    refine Field.keeps_of fun hread settings _ => ?_
    exact passphraseFits_of_read hread
  refine Json.Record.keeps_reader (P := P) ?_ hread rfl
  simp only [List.forall_mem_cons]
  exact ⟨hother fun _ _ => rfl, hpassphrase, hother fun _ _ => rfl, hother fun _ _ => rfl,
    hother fun _ _ => rfl, List.forall_mem_nil _⟩

/-- The passphrase in a settings file fits, if the file is accepted. -/
theorem passphraseFits_of_ofFile {contents : Except Net.IoError Bytes} {settings : Settings}
    (hread : ofFile contents = .ok settings) : Wire.passphraseFits settings.passphrase = true := by
  rw [ofFile.eq_def] at hread
  split at hread
  · cases hread
  · split at hread
    · cases hread
    · rename_i text _
      split at hread
      · rename_i found hfound
        obtain rfl := Except.ok.inj hread
        rw [ofText, Reader.whole] at hfound
        split at hfound
        · cases hfound
        · rename_i found rest hvalue
          split at hfound
          · obtain rfl := Except.ok.inj hfound
            exact passphraseFits_of_reader hvalue
          · cases hfound
      · cases hread

end Settings

end LocalPlay
