import Deferred.Config.Document
import Deferred.Proofs.Toml.Format

/-!
# Configurations in writing

What is written of a configuration is read as that configuration. Where settings are deleted from
the writing, the standard ones are read. No document at all sets a depth of none.
-/
set_option autoImplicit false

namespace Deferred

namespace SubstituteConfig

/-- The standard settings under some keys and the given ones under the others. -/
def standardAt (keys : List String) (c : SubstituteConfig) : SubstituteConfig where
  maxDepth := if "max_depth" ∈ keys then standard.maxDepth else c.maxDepth
  globalAsNothing :=
    if "global_env_as_never" ∈ keys then standard.globalAsNothing else c.globalAsNothing

theorem standardAt_nil (c : SubstituteConfig) : c.standardAt [] = c := rfl

theorem maxDepth_standardAt_ne {c : SubstituteConfig} (h : c.maxDepth ≠ 0) (keys : List String) :
    (c.standardAt keys).maxDepth ≠ 0 := by
  have hstandard : standard.maxDepth ≠ 0 := by decide
  rw [standardAt]
  split
  next => exact hstandard
  next => exact h

def settings (c : SubstituteConfig) : List (String × Data) :=
  [("max_depth", .integer c.maxDepth.toNat), ("global_env_as_never", .boolean c.globalAsNothing)]

variable {F : Format} (hF : F.Lawful)
include hF

theorem encode_layout (c : SubstituteConfig) : (layout F).encode c = c.settings := by
  simp [layout, Layout.encode, RecordField.of, settings, hF.encode_size, hF.encode_flag]

theorem decode_layout (c : SubstituteConfig) (keys : List String) :
    (layout F).decode (c.settings.filter fun s => s.1 ∉ keys) = .ok (c.standardAt keys) := by
  by_cases hmax : "max_depth" ∈ keys <;> by_cases hglobal : "global_env_as_never" ∈ keys <;>
    simp [layout, Layout.decode, RecordField.of, RecordField.decodeFrom, settings, standardAt,
      hmax, hglobal, hF.decode_size, hF.decode_flag, List.lookup_cons, Except.map, bind,
      Except.bind, pure, Except.pure]

end SubstituteConfig

namespace Config

def table (c : Config) : SettingsTable where
  name := "substitute"
  settings := c.substitute.settings
  isBareKey_name := by decide
  isBareKey_of_mem := by
    simp only [SubstituteConfig.settings, List.forall_mem_cons]
    decide
  isSimple_of_mem := by simp [SubstituteConfig.settings, Data.isSimple]
  nodup := by
    change ["max_depth", "global_env_as_never"].Nodup
    decide

variable {F : Format}

theorem decode_layout {d : Data} {s : SubstituteConfig}
    (h : (SubstituteConfig.codec F).decode d = .ok s) :
    (layout F).decode [("substitute", d)] = .ok ⟨s⟩ := by
  simp only [layout, Layout.decode, List.foldlM_cons, List.foldlM_nil, RecordField.decodeFrom,
    RecordField.of, List.lookup_cons_self, h]
  rfl

theorem ofText_of_read {text : String} {d : Data} {c : Config} (hread : F.read text = .ok d)
    (hdecode : (codec F).decode d = .ok c) : ofText F text = c.validate := by
  have hok : F.read text >>= (codec F).decode = .ok c := by rwa [hread]
  rw [ofText, hok]
  rfl

theorem validate_eq_ok {c : Config} (h : c.substitute.maxDepth ≠ 0) : c.validate = .ok c :=
  (validate_eq_ok_iff c c).2 ⟨rfl, h⟩

theorem maxDepth_ne_of_ofText {text : String} {c : Config} (h : ofText F text = .ok c) :
    c.substitute.maxDepth ≠ 0 := by
  rw [ofText] at h
  cases hread : (F.read text >>= (codec F).decode).mapError ConfigFault.malformed with
  | error e =>
    rw [hread] at h
    cases h
  | ok d =>
    rw [hread] at h
    obtain ⟨rfl, hdepth⟩ := (validate_eq_ok_iff d c).1 h
    exact hdepth

section

variable (hF : F.Lawful)
include hF

theorem toText_eq (c : Config) : c.toText F = F.write c.table.data := by
  have hencode : (layout F).encode c = [("substitute", .table c.substitute.settings)] := by
    change [("substitute", (SubstituteConfig.codec F).encode c.substitute)] = _
    rw [SubstituteConfig.codec, hF.encode_record, SubstituteConfig.encode_layout hF]
  rw [toText, codec, hF.encode_record, hencode]
  rfl

theorem decode_without (c : Config) (keys : List String) :
    (codec F).decode (c.table.without keys).data = .ok ⟨c.substitute.standardAt keys⟩ := by
  have hsettings : (SubstituteConfig.codec F).decode (.table (c.table.without keys).settings) =
      .ok (c.substitute.standardAt keys) :=
    hF.decode_record _ _ _ (c.table.without keys).nodup (SubstituteConfig.decode_layout hF _ keys)
  exact hF.decode_record _ _ _ (by simp) (decode_layout hsettings)

theorem decode_data (c : Config) : (codec F).decode c.table.data = .ok c := by
  have hall : (c.table.without []).data = c.table.data := by
    simp [SettingsTable.without, SettingsTable.data]
  have hdecode := decode_without hF c []
  rwa [hall, SubstituteConfig.standardAt_nil] at hdecode

theorem decode_nothing : (codec F).decode (.table []) = .ok standard :=
  hF.decode_record _ _ _ List.nodup_nil rfl

end

/-- Over a lawful format a configuration is written exactly if integers have room for its depth.
What was written is read as the same configuration unless its depth is none, which is refused; what
is deleted from it is read as standard. No text at all gives a depth of none. -/
theorem written_and_read {F : Format} {D : Deletion} (hF : F.Lawful) (hD : D.Lawful F)
    (c : Config) :
    ((c.toText F).isOk ↔ c.substitute.maxDepth.toNat ≤ 9223372036854775807) ∧
      (∀ text, c.toText F = .ok text →
        ofText F text =
          (if c.substitute.maxDepth = 0 then
            .error (.invalidValue "substitute.max_depth" "must be at least 1")
          else .ok c) ∧
        (c.substitute.maxDepth ≠ 0 →
          (∀ keys, ofText F (D.ofKeys keys text) = .ok ⟨c.substitute.standardAt keys⟩) ∧
            ofText F (D.ofTable "substitute" text) = .ok standard)) ∧
      ∀ text d, ofText F text = .ok d → d.substitute.maxDepth ≠ 0 := by
  refine ⟨?_, fun text htext => ?_, fun text d => maxDepth_ne_of_ofText⟩
  · have hmin : Int64.minValue.toInt ≤ 0 := by decide
    have hmax : Int64.maxValue.toInt = 9223372036854775807 := by decide
    rw [toText_eq hF, hF.isOk_write]
    simp only [table, SubstituteConfig.settings, List.all_cons, List.all_nil, Data.inRange,
      Bool.and_true, decide_eq_true_eq]
    omega
  · rw [toText_eq hF] at htext
    refine ⟨ofText_of_read (hF.read_of_write _ _ htext) (decode_data hF c),
      fun hdepth => ⟨fun keys => ?_, ?_⟩⟩
    · have hread := ofText_of_read (hD.read_ofKeys _ keys _ htext) (decode_without hF c keys)
      exact hread.trans (validate_eq_ok (SubstituteConfig.maxDepth_standardAt_ne hdepth keys))
    · have hread := ofText_of_read (hD.read_ofTable _ _ htext) (decode_nothing hF)
      exact hread.trans (validate_eq_ok (by decide))

/-- A depth of 123 and the flag that is not standard, in the format of configuration documents. -/
theorem written_and_read_123 :
    Format.toml.Lawful ∧ Deletion.ofLines.Lawful .toml ∧
      toText .toml ⟨⟨123, false⟩⟩ =
        .ok "[substitute]\nmax_depth = 123\nglobal_env_as_never = false\n" ∧
      ofText .toml "[substitute]\nmax_depth = 123\nglobal_env_as_never = false\n" =
        .ok ⟨⟨123, false⟩⟩ ∧
      ofText .toml "[substitute]\nmax_depth = 123\n" = .ok ⟨⟨123, true⟩⟩ ∧
      ofText .toml "[substitute]\nglobal_env_as_never = false\n" = .ok ⟨⟨5000, false⟩⟩ ∧
      ofText .toml "" = .ok standard ∧ (123 : UInt64) ≠ 0 := by
  have htext : toText .toml ⟨⟨123, false⟩⟩ =
      .ok "[substitute]\nmax_depth = 123\nglobal_env_as_never = false\n" := by rfl
  obtain ⟨hread, hdeleted⟩ :=
    (written_and_read Format.lawful_toml Deletion.lawful_ofLines ⟨⟨123, false⟩⟩).2.1 _ htext
  obtain ⟨hkeys, htable⟩ := hdeleted (by decide)
  exact ⟨Format.lawful_toml, Deletion.lawful_ofLines, htext, hread, hkeys ["global_env_as_never"],
    hkeys ["max_depth"], htable,
    (written_and_read Format.lawful_toml Deletion.lawful_ofLines standard).2.2 _ _ hread⟩

end Config

end Deferred
