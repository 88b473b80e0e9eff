import CodeNav.Proofs.Json.Indented
import CodeNav.Settings.File

/-!
# Settings are read as they were written

## Main statements

* `SettingsFile.parse_render`: the text of settings is read as these settings
-/

namespace CodeNav.SettingsFile

open Json (readsAs_text readsAs_truth readsAs_word)

variable {s : Settings} {path : Path}

theorem text_mem_serverWords (c : ServerChoice) : c.text ∈ Settings.serverWords := by
  cases c <;> decide

/-- The settings of a text that settings were written in. -/
theorem read_render (s : Settings) :
    ∃ j, Settings.shape.read (Json.indentedChars 0 s.toJson) = .ok j ∧ Settings.ofNormal j = s := by
  refine ⟨s.toJson, Json.read_indentedChars (fun f hf ↦ ?_) ?_ rfl, ?_⟩
  · simp only [List.mem_cons, List.not_mem_nil, or_false] at hf
    rcases hf with rfl | rfl | rfl | rfl | rfl | rfl | rfl | rfl
    · exact ⟨_, _, rfl, rfl, readsAs_word (text_mem_serverWords _)⟩
    · exact ⟨_, _, rfl, rfl, readsAs_text _⟩
    · exact ⟨_, _, rfl, rfl, readsAs_text _⟩
    · exact ⟨_, _, rfl, rfl, readsAs_text _⟩
    · exact ⟨_, _, rfl, rfl, readsAs_text _⟩
    · exact ⟨_, _, rfl, rfl, readsAs_text _⟩
    · exact ⟨_, _, rfl, rfl, readsAs_truth _⟩
    · exact ⟨_, _, rfl, rfl, readsAs_text _⟩
  · have hnames : ["server", "server_path", "sdk", "sdk_path", "target", "toolchain", "auto_checkout",
        "access_token_github"].Nodup := by decide
    exact hnames
  · cases s with
    | mk server =>
      cases server <;> rfl

theorem zero_notMem_render (s : Settings) : '\x00' ∉ (render s).toList := by
  cases hauto : s.autoCheckout <;>
    simp [render, Json.indented, Settings.toJson, Json.indentedChars, Json.indentedFields, Json.lineBreak,
      Json.compactChars, Json.zero_notMem_quoteChars, hauto]

/-- The text of settings is read as these settings. -/
theorem parse_render (path : Path) (s : Settings) : parse path (render s) = .ok s := by
  obtain ⟨j, hj, hs⟩ := read_render s
  have hbytes : Json.byteText (Text.utf8Bytes (render s).toList) = Json.indentedChars 0 s.toJson := by
    rw [Json.byteText_utf8Bytes (zero_notMem_render s), render, Json.indented, String.toList_ofList]
  simp only [parse, hbytes, hj, hs]

end CodeNav.SettingsFile
