import TreeDump.Format
import TreeDump.Proofs.Json.Reading
import TreeDump.Proofs.Json.Writing

/-!
# Reading back what was written

What the writer writes is a text of the value in the grammar, and the reader answers the value of
exactly the texts in the grammar.  So the reader undoes the writer in every layout.

* `render_readBack`: both JSON formats write one complete document, which no other value has and
  which is read as the value again, and no two values are written alike.
-/

namespace TreeDump.Json

open Grammar

/-- In every layout, what is written is a document of the value. -/
theorem document_render (layout : Layout) (v : Json) : Document (render layout v) v := by
  refine ⟨[], (render layout v).toList, [], blank_nil, ?_, blank_nil, ?_⟩
  · rw [render_eq_encode]
    exact value_encode layout 0 v
  · rw [List.nil_append, List.append_nil]

theorem parse_render (layout : Layout) (v : Json) : parse (render layout v) = some v :=
  parse_eq_some_iff.mpr (document_render layout v)

/-- A text is a document of one value at most. -/
theorem Document.unique {text : String} {v w : Json} (hV : Document text v)
    (hW : Document text w) : v = w := by
  have hParse := parse_eq_some_iff.mpr hV
  rw [parse_eq_some_iff.mpr hW] at hParse
  exact (Option.some.inj hParse).symm

theorem render_injective (layout : Layout) {v w : Json} (h : render layout v = render layout w) :
    v = w := by
  have hV := document_render layout v
  rw [h] at hV
  exact hV.unique (document_render layout w)

/-- Both JSON formats write one complete document, of the value that was written and of no other;
the reader takes documents only and answers that value; and the formats write no two values
alike. -/
theorem render_readBack :
    (∀ (v : Json) (text : String),
      text = v.compact ∨ text = OutputFormat.prettyJson.render v →
        Document text v ∧ (∀ w, Document text w → w = v) ∧ parse text = some v) ∧
    (∀ (text : String) (v : Json), parse text = some v → Document text v) ∧
    (∀ v w : Json, v.compact = w.compact → v = w) ∧
    (∀ v w : Json, OutputFormat.prettyJson.render v = OutputFormat.prettyJson.render w →
      v = w) := by
  refine ⟨?_, ?_, ?_, ?_⟩
  · intro v text hText
    have hLayout : ∃ layout, text = render layout v := by
      rcases hText with rfl | rfl
      · exact ⟨.compact, rfl⟩
      · exact ⟨.indented 2, rfl⟩
    obtain ⟨layout, rfl⟩ := hLayout
    have hDocument := document_render layout v
    exact ⟨hDocument, fun w hW => hW.unique hDocument, parse_render layout v⟩
  · intro text v hParse
    exact parse_eq_some_iff.mp hParse
  · intro v w h
    exact render_injective .compact h
  · intro v w h
    exact render_injective (.indented 2) h

end TreeDump.Json
