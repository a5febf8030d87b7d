import LivePreview.Surface.Shell
import LivePreview.Proofs.Document.ConstantsScript
import LivePreview.Proofs.Source.ConstantDeclaration

namespace LivePreview.Surface

open LivePreview.Document (Piece Mark Counts CalmLines IsMark Quiet isCalm isSealed occurrences)
open LivePreview.Document (written spell startsAnyCase embeddedJson)
open LivePreview.Json (readAll readValue maxDepth)

set_option maxRecDepth 10000 in
theorem calmLines_shellStyle : CalmLines shellStyleLines := by
  unfold shellStyleLines
  repeat' first
    | exact .nil
    | refine .cons (by rfl) ?_

set_option maxRecDepth 10000 in
theorem calmLines_shellScript : CalmLines shellScriptLines := by
  unfold shellScriptLines
  repeat' first
    | exact .nil
    | refine .cons (by rfl) ?_

theorem isCalm_shellStyle : isCalm shellStyle.toList :=
  calmLines_shellStyle.isCalm_intercalate

theorem isCalm_shellScript : isCalm shellScript.toList :=
  calmLines_shellScript.isCalm_intercalate

theorem isCalm_natText (n : Nat) : isCalm (toString n).toList := by
  rw [Nat.toString_eq_ofList_toDigits, String.toList_ofList]
  refine Document.isCalm_of_not_mem fun hmem => ?_
  have hdigit : '<'.isDigit := Nat.isDigit_of_mem_toDigits (by decide) (by decide) hmem
  cases hdigit

inductive Silent (word : List Char) : List Piece → Prop where
  | nil : Silent word []
  | markup {text : List Char} {pieces : List Piece} :
      isSealed word text → occurrences word text = 0 → Silent word pieces →
      Silent word (.markup (String.ofList text) :: pieces)
  | value {text : String} {pieces : List Piece} :
      isCalm text.toList → Silent word pieces → Silent word (.value text :: pieces)

theorem Silent.quiet {word : List Char} {pieces : List Piece} (hword : IsMark word)
    (h : Silent word pieces) : Quiet word pieces ∧ written word pieces = 0 := by
  induction h with
  | nil => exact ⟨Document.quiet_nil, rfl⟩
  | markup hsealed hnone _ ih =>
    refine ⟨Document.quiet_cons.2 ⟨?_, ih.1⟩, ?_⟩
    · simpa [Piece.Quiet] using hsealed
    · simp [written, hnone, ih.2]
  | value hcalm _ ih =>
    exact ⟨Document.quiet_cons.2
      ⟨⟨hword.isSealed_of_isCalm hcalm, hword.occurrences_of_isCalm hcalm⟩, ih.1⟩, ih.2⟩

def Shell.headPieces (timing : Timing) : List Piece :=
  [.markup "<!DOCTYPE html>\n<html lang=\"en\">\n<head>\n",
    .markup "<meta charset=\"utf-8\" />\n",
    .markup "<meta name=\"viewport\" content=\"width=device-width, initial-scale=1\" />\n",
    .markup "<title>Lantern preview</title>\n",
    .markup "<style>:root\x7b--fade:", .value (toString timing.crossfadeMs.toNat), .markup "ms\x7d",
    .value shellStyle, .markup "</style>\n"]

def Shell.stagePieces : List Piece :=
  [.markup "</head>\n<body>\n<div id=\"stage\">\n",
    .markup "<div id=\"loading\" class=\"overlay\"><div class=\"spinner\"></div></div>\n",
    .markup "<div id=\"empty\" class=\"overlay\"></div>\n",
    .markup "<div id=\"error\" class=\"overlay\"><div class=\"panel\"><strong>Preview error</strong>",
    .markup "<pre id=\"error-text\"></pre><button id=\"dismiss\" type=\"button\">Dismiss</button></div></div>\n",
    .markup "</div>\n"]

def Shell.opening : String :=
  "<script>window.__LANTERN_SHELL__ = "

def Shell.scriptPieces (session : String) (timing : Timing) : List Piece :=
  [.markup Shell.opening, .value (embeddedJson (Shell.settings session timing)),
    .markup ";</script>\n", .markup "<script>", .value shellScript,
    .markup "</script>\n</body>\n</html>\n"]

def scriptTag : List Char :=
  ['<', 's', 'c', 'r', 'i', 'p', 't']

theorem isMark_scriptTag : IsMark scriptTag :=
  ⟨⟨'s', _, rfl, by decide⟩, by decide⟩

theorem silent_front (timing : Timing) {word : List Char}
    (h : word = scriptTag ∨ word = Mark.scriptEnd.word) :
    Silent word (Shell.headPieces timing ++ Shell.stagePieces) := by
  have hfade := isCalm_natText timing.crossfadeMs.toNat
  refine .markup ?_ ?_ (.markup ?_ ?_ (.markup ?_ ?_ (.markup ?_ ?_ (.markup ?_ ?_ (.value hfade
    (.markup ?_ ?_ (.value isCalm_shellStyle (.markup ?_ ?_ (.markup ?_ ?_ (.markup ?_ ?_
    (.markup ?_ ?_ (.markup ?_ ?_ (.markup ?_ ?_ (.markup ?_ ?_ .nil))))))))))))))
  all_goals rcases h with rfl | rfl <;> rfl

theorem counts_shellScripts (session : String) (timing : Timing) :
    Counts .scriptEnd (Shell.scriptPieces session timing) 2 := by
  have hsettings := Document.isCalm_embeddedJson (Shell.settings session timing)
  have hpieces : Counts .scriptEnd (Shell.scriptPieces session timing)
      (Mark.scriptEnd.inEndTag + (Mark.scriptEnd.inEndTag + 0)) := by
    refine .plain ?_ (.value hsettings (.ending ?_ (.plain ?_ (.value isCalm_shellScript
      (.ending ?_ .nil)))))
    all_goals
      intro mark
      cases mark <;> exact ⟨rfl, rfl⟩
  exact hpieces

def Shell.pieces (session : String) (timing : Timing) : List Piece :=
  Shell.headPieces timing ++ Shell.stagePieces ++ Shell.scriptPieces session timing

theorem spell_shellPieces (session : String) (timing : Timing) :
    spell (Shell.pieces session timing) = (Shell.page session timing).toList := by
  have hjoined : Document.joined (Shell.pieces session timing) = Shell.page session timing := by
    simp only [Shell.pieces, Shell.headPieces, Shell.stagePieces, Shell.scriptPieces,
      List.cons_append, List.nil_append, Document.joined, List.foldl_cons, List.foldl_nil,
      Piece.content]
    rfl
  rw [Document.spell_eq_toList_joined, hjoined]

theorem counts_shellPieces (session : String) (timing : Timing) :
    Counts .scriptEnd (Shell.pieces session timing) 2 := by
  obtain ⟨hquiet, hwritten⟩ :=
    (silent_front timing (.inr rfl)).quiet Mark.scriptEnd.isMark
  have hfront : Counts .scriptEnd (Shell.headPieces timing ++ Shell.stagePieces) 0 :=
    ⟨hquiet, hwritten⟩
  exact hfront.append (counts_shellScripts session timing)

def settingsFields (session : String) (timing : Timing) : List (String × Json) :=
  [("crossfadeMs", .ofUInt64 timing.crossfadeMs), ("session", .str session)]

theorem settings_eq (session : String) (timing : Timing) :
    Shell.settings session timing = .obj (settingsFields session timing) := by
  simp only [Shell.settings, settingsFields, Json.ofFields, List.foldl_cons, List.foldl_nil,
    Json.insertField, String.reduceLT, if_true]

theorem exact_settings (session : String) (timing : Timing) :
    (Json.obj (settingsFields session timing)).Exact := by
  have hnames : "crossfadeMs" < "session" := by simp only [String.reduceLT]
  refine .obj (List.pairwise_pair.2 hnames) fun field hfield => ?_
  simp only [settingsFields, List.mem_cons, List.not_mem_nil, or_false] at hfield
  rcases hfield with rfl | rfl
  · exact .int _
  · exact .str session

theorem readValue_settings (session : String) (timing : Timing) (rest : List Char) :
    readValue maxDepth (Document.embed (Shell.settings session timing) ++ ';' :: rest) =
      .ok (.obj (settingsFields session timing), ';' :: rest) := by
  have hdepth : (Json.obj (settingsFields session timing)).depth ≤ maxDepth := by
    have hone : (Json.obj (settingsFields session timing)).depth = 1 := rfl
    rw [hone]
    decide
  rw [settings_eq]
  exact Document.readsBack_embed (exact_settings session timing) hdepth _
    (Json.endsNumber_cons (by simp))

theorem spell_shellScripts (session : String) (timing : Timing) :
    ∃ rest, spell (Shell.scriptPieces session timing) = Shell.opening.toList ++
      (Document.embed (Shell.settings session timing) ++ (";</script>".toList ++ rest)) := by
  have hend : ";</script>\n".toList = ";</script>".toList ++ ['\n'] := by
    have hcut : ";</script>" ++ "\n" = ";</script>\n" := String.ofList_append.symm
    rw [← hcut, String.toList_append]
    rfl
  refine ⟨'\n' :: spell [.markup "<script>", .value shellScript,
    .markup "</script>\n</body>\n</html>\n"], ?_⟩
  rw [Shell.scriptPieces, Document.spell_cons, Document.spell_cons, Document.spell_cons]
  simp only [Piece.text, Piece.content, hend, Document.toList_embeddedJson, List.append_assoc,
    List.singleton_append]

/-- JSON in a script is read back as it was put in, at every limit on nesting that admits it, and holds
no `<`. So each line of the script of constants gives a constant its text, in the order of the
constants; and a shell page has two script ends, and its first script begins with its session and the
time of its cross-fade. -/
theorem embedded_json_reads_back :
    (∀ value : Json, '<' ∉ (embeddedJson value).toList ∧ (value.Exact → ∀ limit,
      (readAll (readValue limit) (embeddedJson value).toList = .ok value ↔ value.depth ≤ limit))) ∧
    (∀ raw, Document.readAssignments
        (Document.constantsScript (Source.Constants.ofSource raw)).toList =
          .ok ((Source.Constants.ofSource raw).toList.map (Prod.map (·.text) .str)) ∧
      ((Source.Constants.ofSource raw).toList.map (·.1.text)).Pairwise (· < ·)) ∧
    ∀ session timing, occurrences "</script".toList (Shell.page session timing).toList = 2 ∧
      ∃ before rest, (Shell.page session timing).toList = before ++ Shell.opening.toList ++ rest ∧
        (∀ u v, (Shell.page session timing).toList = u ++ v →
          startsAnyCase "<script".toList v → before.length ≤ u.length) ∧
        ∃ behind, readValue maxDepth rest =
          .ok (.obj [("crossfadeMs", .ofUInt64 timing.crossfadeMs), ("session", .str session)],
            ";</script>".toList ++ behind) := by
  refine ⟨fun value => ?_, fun raw => ?_, fun session timing => ?_⟩
  · rw [Document.toList_embeddedJson]
    exact ⟨Document.not_mem_embed value, fun h limit => Document.readAll_embed_iff h⟩
  · exact ⟨Document.readAssignments_constantsScript _, Source.Constants.pairwise_names _⟩
  · have hword : "</script".toList = Mark.scriptEnd.word := String.toList_ofList
    have htag : "<script".toList = scriptTag := String.toList_ofList
    obtain ⟨hquiet, hwritten⟩ := counts_shellPieces session timing
    obtain ⟨hfront, hnone⟩ := (silent_front timing (.inl rfl)).quiet isMark_scriptTag
    obtain ⟨behind, hscripts⟩ := spell_shellScripts session timing
    refine ⟨?_, spell (Shell.headPieces timing ++ Shell.stagePieces),
      Document.embed (Shell.settings session timing) ++ (";</script>".toList ++ behind),
      ?_, ?_, behind, ?_⟩
    · rw [hword, ← spell_shellPieces, hquiet.occurrences_spell, hwritten]
    · rw [← spell_shellPieces, Shell.pieces, Document.spell_append, hscripts, List.append_assoc]
    · intro u v huv hv
      rw [htag] at hv
      rw [← spell_shellPieces, Shell.pieces, Document.spell_append] at huv
      exact Document.length_le_of_startsAnyCase hfront.isSealed_spell
        (hfront.occurrences_spell.trans hnone) huv hv
    · exact readValue_settings session timing _

theorem read_back_markup :
    (Json.arr [.obj [("note", .str "\\<\"\x01")]]).Exact ∧
      readAll (readValue 2) (embeddedJson (.arr [.obj [("note", .str "\\<\"\x01")]])).toList =
        .ok (.arr [.obj [("note", .str "\\<\"\x01")]]) := by
  have hexact : (Json.arr [.obj [("note", .str "\\<\"\x01")]]).Exact := by
    refine .arr (List.forall_mem_singleton.2 (.obj (List.pairwise_singleton _ _) ?_))
    exact List.forall_mem_singleton.2 (.str _)
  exact ⟨hexact, ((embedded_json_reads_back.1 _).2 hexact 2).2 (by decide)⟩

end LivePreview.Surface
