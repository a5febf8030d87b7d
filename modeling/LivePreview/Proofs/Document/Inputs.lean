import LivePreview.Document.Basic
import LivePreview.Proofs.Document.Embedding

/-!
A document tells what it was built from. Each section is legible, whatever stands behind it, so the
sections of two equal documents end at the same places and hold the same values.
-/

namespace LivePreview.Document

open LivePreview.Text (Legible)

/-- Settings that read the same; the least quantity is compared by its text. -/
structure SameSettings (a b : DataApi) : Prop where
  url : a.url = b.url
  anonKey : a.anonKey = b.anonKey
  serviceKey : a.serviceKey = b.serviceKey
  pollIntervalMs : a.pollIntervalMs = b.pollIntervalMs
  minQuantity : Json.writeFloat a.minQuantity = Json.writeFloat b.minQuantity
  locationRpc : a.locationRpc = b.locationRpc

structure SameOptions (o p : Options) : Prop where
  baseUrl : o.baseUrl = p.baseUrl
  title : o.title = p.title
  libraries : o.libraries = p.libraries
  api : SameSettings o.api p.api

def firstEscaped : List Char → Char
  | '&' :: 'a' :: _ => '&'
  | '&' :: 'l' :: _ => '<'
  | '&' :: 'g' :: _ => '>'
  | '&' :: 'q' :: _ => '"'
  | c :: _ => c
  | [] => ' '

theorem firstEscaped_cons {c : Char} (h : c ≠ '&') (u : List Char) : firstEscaped (c :: u) = c := by
  unfold firstEscaped
  split
  all_goals simp_all

theorem firstEscaped_text (c : Char) (u : List Char) :
    firstEscaped (escapeTextChar c ++ u) = c := by
  unfold escapeTextChar
  split
  · subst_vars
    rfl
  · split
    · subst_vars
      rfl
    · split
      · subst_vars
        rfl
      · exact firstEscaped_cons ‹_› u

theorem firstEscaped_attribute (c : Char) (u : List Char) :
    firstEscaped (escapeAttributeChar c ++ u) = c := by
  unfold escapeAttributeChar
  split
  · subst_vars
    rfl
  · exact firstEscaped_text c u

theorem escapeTextChar_cases (c : Char) :
    (∃ cs, escapeTextChar c = '&' :: cs) ∨ escapeTextChar c = [c] ∧ c ≠ '<' := by
  unfold escapeTextChar
  split
  · exact .inl ⟨_, rfl⟩
  · split
    · exact .inl ⟨_, rfl⟩
    · split
      · exact .inl ⟨_, rfl⟩
      · exact .inr ⟨rfl, ‹_›⟩

theorem escapeAttributeChar_cases (c : Char) :
    (∃ cs, escapeAttributeChar c = '&' :: cs) ∨ escapeAttributeChar c = [c] ∧ c ≠ '"' := by
  unfold escapeAttributeChar
  split
  · exact .inl ⟨_, rfl⟩
  · exact (escapeTextChar_cases c).imp_right fun h => ⟨h.1, ‹_›⟩

theorem legible_escaped {α : Type} {code : Char → List Char} {q : Char} {rest : α → List Char}
    {S : α → α → Prop} (hcode : Legible code Eq) (hamp : '&' ≠ q)
    (hcases : ∀ c, (∃ cs, code c = '&' :: cs) ∨ code c = [c] ∧ c ≠ q) (text : α → String)
    (hrest : Legible rest S) :
    Legible (fun x => (text x).toList.flatMap code ++ q :: rest x)
      fun x y => text x = text y ∧ S x y := by
  have hbegins : ∀ c, ∃ d cs, code c = d :: cs ∧ d ≠ q := by
    intro c
    rcases hcases c with ⟨cs, hc⟩ | ⟨hc, hne⟩
    · exact ⟨'&', cs, hc, hamp⟩
    · exact ⟨c, [], hc, hne⟩
  refine (hcode.flatMap_until (fun x => (text x).toList) hbegins hrest).imp ?_
  intro x y hboth
  exact hboth.imp_left String.toList_inj.1

theorem legible_attribute {α : Type} {rest : α → List Char} {S : α → α → Prop} (text : α → String)
    (hrest : Legible rest S) :
    Legible (fun x => (escapeAttribute (text x)).toList ++ '"' :: rest x)
      fun x y => text x = text y ∧ S x y := by
  simp only [escapeAttribute, String.toList_ofList]
  exact legible_escaped (.of_leftInverse firstEscaped_attribute) (by decide)
    escapeAttributeChar_cases text hrest

theorem legible_text {α : Type} {rest : α → List Char} {S : α → α → Prop} (text : α → String)
    (hrest : Legible rest S) :
    Legible (fun x => (escapeText (text x)).toList ++ '<' :: rest x)
      fun x y => text x = text y ∧ S x y := by
  simp only [escapeText, String.toList_ofList]
  exact legible_escaped (.of_leftInverse firstEscaped_text) (by decide)
    escapeTextChar_cases text hrest

theorem toList_ofList_cons (c : Char) (cs : List Char) :
    (String.ofList (c :: cs)).toList = c :: (String.ofList cs).toList := by
  rw [String.toList_ofList, String.toList_ofList]

theorem legible_environment :
    Legible (fun o : Options => (environment o).toList)
      fun o p => o.baseUrl = p.baseUrl ∧ o.title = p.title := by
  have hquote : "\" />\n".toList = '"' :: " />\n".toList := toList_ofList_cons _ _
  have htag : "</title>\n".toList = '<' :: "/title>\n".toList := toList_ofList_cons _ _
  have htitle : Legible
      (fun o : Options => (escapeText o.title).toList ++
        '<' :: ("/title>\n".toList ++
          ("<style>".toList ++ (resetStyle.toList ++ "</style>\n".toList))))
      fun o p => o.title = p.title :=
    (legible_text _ (.text _)).imp fun _ _ h => h.1
  have hbase := legible_attribute (fun o : Options => o.baseUrl)
    ((htitle.text_append "<title>".toList).text_append " />\n".toList)
  unfold environment
  simp only [String.toList_append, List.append_assoc, hquote, htag, List.cons_append]
  exact (((hbase.text_append _).text_append _).text_append _).text_append _

def sourceTag (src : String) : String :=
  "<script src=\"" ++ escapeAttribute src ++ "\" crossorigin=\"anonymous\""

theorem toList_sourceTag (src : String) :
    (sourceTag src).toList = "<script src=\"".toList ++
      ((escapeAttribute src).toList ++ '"' :: " crossorigin=\"anonymous\"".toList) := by
  have hquote : "\" crossorigin=\"anonymous\"".toList =
      '"' :: " crossorigin=\"anonymous\"".toList := toList_ofList_cons _ _
  unfold sourceTag
  simp only [String.toList_append, List.append_assoc, hquote]

theorem legible_sourceTag : Legible (fun src => (sourceTag src).toList) Eq := by
  simp only [toList_sourceTag]
  exact ((legible_attribute id (.text _)).text_append _).imp fun _ _ h => h.1

theorem toList_requiredLibrary (src : String) :
    (requiredLibrary src).toList = (sourceTag src).toList ++ "></script>\n".toList := by
  have hending : "\" crossorigin=\"anonymous\"" ++ "></script>\n" =
      "\" crossorigin=\"anonymous\"></script>\n" := String.ofList_append.symm
  unfold requiredLibrary sourceTag
  simp only [← hending, String.toList_append, List.append_assoc]

theorem toList_optionalLibrary (src : String) :
    (optionalLibrary src).toList =
      (sourceTag src).toList ++ " data-optional=\"true\"></script>\n".toList := by
  have hending : "\" crossorigin=\"anonymous\"" ++ " data-optional=\"true\"></script>\n" =
      "\" crossorigin=\"anonymous\" data-optional=\"true\"></script>\n" :=
    String.ofList_append.symm
  unfold optionalLibrary sourceTag
  simp only [← hending, String.toList_append, List.append_assoc]

def bodyStart : String :=
  "</head>\n<body>\n<div id=\"root\"></div>\n"

theorem sourceTag_append_ne (src : String) (u v : List Char) :
    (sourceTag src).toList ++ u ≠ bodyStart.toList ++ v := by
  intro h
  rw [toList_sourceTag] at h
  exact absurd (List.cons.inj (List.cons.inj h).2).1 (by decide)

theorem requiredLibrary_append_ne (x y : String) (u v : List Char) :
    (requiredLibrary x).toList ++ u ≠ (optionalLibrary y).toList ++ v := by
  intro h
  rw [toList_requiredLibrary, toList_optionalLibrary, List.append_assoc, List.append_assoc] at h
  have hbehind := (legible_sourceTag h).2
  exact absurd (List.cons.inj hbehind).1 (by decide)

theorem legible_libraries :
    Legible (fun libraries => (libraryIncludes libraries).toList ++ bodyStart.toList) Eq := by
  have hrequired : Legible (fun src => (requiredLibrary src).toList) Eq := by
    simp only [toList_requiredLibrary]
    exact legible_sourceTag.append_text _
  have hoptional : Legible (fun src => (optionalLibrary src).toList) Eq := by
    simp only [toList_optionalLibrary]
    exact legible_sourceTag.append_text _
  have hrest := hoptional.flatMap_append Libraries.optional
    (Legible.text (β := Libraries) bodyStart.toList) (by
      intro x _ u v
      rw [toList_optionalLibrary, List.append_assoc]
      exact sourceTag_append_ne x _ v)
  have hall := hrequired.flatMap_append Libraries.required hrest (by
    intro x libraries u v
    cases libraries.optional with
    | nil =>
      rw [toList_requiredLibrary, List.append_assoc]
      exact sourceTag_append_ne x _ v
    | cons y ys =>
      rw [List.flatMap_cons, List.append_assoc, List.append_assoc]
      exact requiredLibrary_append_ne x y u _)
  have hjoin : ∀ libraries, (libraryIncludes libraries).toList =
      libraries.required.flatMap (fun src => (requiredLibrary src).toList) ++
        libraries.optional.flatMap fun src => (optionalLibrary src).toList := by
    intro libraries
    simp [libraryIncludes, String.toList_join, List.flatMap_def, Function.comp_def]
  simp only [hjoin, List.append_assoc]
  refine hall.imp ?_
  rintro ⟨required, optional⟩ ⟨required', optional'⟩ ⟨h, h', -⟩
  exact congrArg₂ Libraries.mk h h'

def settingsFields : List (String × (DataApi → Json)) :=
  [("anonKey", fun api => .str api.anonKey),
    ("apiUrl", fun api => .str api.url),
    ("locationRpc", fun api => .str api.locationRpc),
    ("minQuantity", fun api => .float api.minQuantity),
    ("pollIntervalMs", fun api => .ofUInt64 api.pollIntervalMs),
    ("recognized", fun _ => .arr (Source.ConstantName.all.map fun name => .str name.text)),
    ("rootSymbols", fun _ => .arr (Source.RootName.all.map fun name => .str name.text)),
    ("serviceKey", fun api => .ofOption api.serviceKey)]

theorem guestSettings_eq (api : DataApi) :
    guestSettings api = .obj (settingsFields.map fun field => (field.1, field.2 api)) := by
  simp only [guestSettings, settingsFields, Json.ofFields, List.foldl_cons, List.foldl_nil,
    List.map_cons, List.map_nil, Json.insertField, String.reduceLT, String.reduceEq, if_true,
    if_false]

theorem endsItself_settings : ∀ field ∈ settingsFields, EndsItself field.2 := by
  simp only [settingsFields, List.forall_mem_cons]
  refine ⟨?anonKey, ?apiUrl, ?locationRpc, ?minQuantity, ?pollIntervalMs, ?recognized,
    ?rootSymbols, ?serviceKey, nofun⟩
  case anonKey => exact endsItself_of_legible legible_str _
  case apiUrl => exact endsItself_of_legible legible_str _
  case locationRpc => exact endsItself_of_legible legible_str _
  case minQuantity => exact endsItself_of_plain fun _ => plain_float _
  case pollIntervalMs => exact endsItself_of_plain fun _ => plain_word _
  case recognized => exact endsItself_const _
  case rootSymbols => exact endsItself_const _
  case serviceKey => exact endsItself_of_legible legible_option _

theorem sameSettings_of_embed {a b : DataApi}
    (h : ∀ field ∈ settingsFields, embed (field.2 a) = embed (field.2 b)) : SameSettings a b := by
  simp only [settingsFields, List.forall_mem_cons] at h
  obtain ⟨hanonKey, hapiUrl, hlocationRpc, hminQuantity, hpollIntervalMs, -, -, hserviceKey, -⟩ := h
  constructor
  case url => exact legible_str.eq_of_eq hapiUrl
  case anonKey => exact legible_str.eq_of_eq hanonKey
  case serviceKey => exact legible_option.eq_of_eq hserviceKey
  case pollIntervalMs => exact embed_word_inj hpollIntervalMs
  case minQuantity => exact embed_float_inj hminQuantity
  case locationRpc => exact legible_str.eq_of_eq hlocationRpc

theorem legible_settings : Legible (fun api => (settingsScript api).toList) SameSettings := by
  have hsettings : Legible (fun api => embed (guestSettings api)) SameSettings := by
    simp only [guestSettings_eq]
    exact (legible_object settingsFields endsItself_settings).imp fun _ _ => sameSettings_of_embed
  unfold settingsScript
  simp only [String.toList_append, toList_embeddedJson, List.append_assoc]
  exact (hsettings.append_text (";\n".toList ++ dataScript.toList)).text_append _

theorem constantName_text_inj {m n : Source.ConstantName} (h : m.text = n.text) : m = n := by
  cases m <;> cases n <;> first | rfl | exact absurd h (by decide)

theorem toList_constantAssignment (constant : Source.ConstantName × String) :
    (constantAssignment constant).toList = "window.".toList ++
      (constant.1.text.toList ++ (" = ".toList ++ (embed (.str constant.2) ++ ";\n".toList))) := by
  unfold constantAssignment
  simp only [String.toList_append, toList_embeddedJson, List.append_assoc]

theorem legible_assignment : Legible (fun constant => (constantAssignment constant).toList) Eq := by
  have hgap : " = ".toList = ' ' :: "= ".toList := toList_ofList_cons _ _
  have hname : ∀ name : Source.ConstantName, ' ' ∉ name.text.toList := by
    intro name
    cases name <;> decide
  have hvalue : Legible
      (fun constant : Source.ConstantName × String =>
        "= ".toList ++ (embed (.str constant.2) ++ ";\n".toList))
      fun c d => c.2 = d.2 :=
    ((legible_str.of fun constant : Source.ConstantName × String => constant.2).append_text
      ";\n".toList).text_append "= ".toList
  have hall := (Legible.word_until _ (fun constant => hname constant.1) hvalue).text_append
    "window.".toList
  simp only [toList_constantAssignment, hgap, List.cons_append]
  refine hall.imp ?_
  intro c d hsame
  exact Prod.ext (constantName_text_inj (String.toList_inj.1 hsame.1)) hsame.2

theorem constants_toList_inj {c d : Source.Constants} (h : c.toList = d.toList) : c = d := by
  obtain ⟨location, vendor⟩ := c
  obtain ⟨location', vendor'⟩ := d
  cases location <;> cases vendor <;> cases location' <;> cases vendor' <;>
    simp_all [Source.Constants.toList, Source.ConstantName.all, Source.Constants.get?]

theorem toList_inlineScript (body : String) :
    (inlineScript body).toList =
      "<script>\n".toList ++ (body.toList ++ "\n</script>\n".toList) := by
  unfold inlineScript
  simp only [String.toList_append, List.append_assoc]

theorem toList_constantsScript (constants : Source.Constants) : (constantsScript constants).toList =
    constants.toList.flatMap fun constant => (constantAssignment constant).toList := by
  simp [constantsScript, String.toList_join, List.flatMap_def, Function.comp_def]

theorem legible_constantsScript :
    Legible (fun constants => (inlineScript (constantsScript constants)).toList) Eq := by
  have hall := legible_assignment.flatMap_append Source.Constants.toList
    (Legible.text (β := Source.Constants) "\n</script>\n".toList) (by
      intro constant _ u v h
      rw [toList_constantAssignment] at h
      exact absurd (List.cons.inj h).1 (by decide))
  simp only [toList_inlineScript, toList_constantsScript]
  exact (hall.text_append _).imp fun _ _ h => constants_toList_inj h.1

def programStart : String :=
  "<script type=\"text/plain\" id=\"lantern-source\">\n"

def constantsSection (constants : Source.Constants) : String :=
  (if constants.isEmpty then "" else inlineScript (constantsScript constants)) ++ programStart

theorem legible_constantsSection :
    Legible (fun constants => (constantsSection constants).toList) Eq := by
  -- A section without constants is a repetition of none.
  let shown (constants : Source.Constants) : List Source.Constants :=
    if constants.isEmpty then [] else [constants]
  have hall := legible_constantsScript.flatMap_append shown
    (Legible.text (β := Source.Constants) programStart.toList) (by
      intro constants _ u v h
      rw [toList_inlineScript] at h
      exact absurd (congrArg (fun cs => cs[7]?) h) (by simp [programStart]))
  have hshown : ∀ constants, (constantsSection constants).toList =
      (shown constants).flatMap (fun constants =>
        (inlineScript (constantsScript constants)).toList) ++ programStart.toList := by
    intro constants
    simp only [constantsSection, String.toList_append, shown]
    split <;> simp
  simp only [hshown]
  refine hall.imp ?_
  intro c d h
  obtain ⟨hsame, -⟩ := h
  simp only [shown] at hsame
  split at hsame <;> split at hsame
  · rename_i hc hd
    exact constants_toList_inj ((List.isEmpty_iff.1 hc).trans (List.isEmpty_iff.1 hd).symm)
  · cases hsame
  · cases hsame
  · exact List.singleton_inj.1 hsame

def front (options : Options) : String :=
  environment options ++ inlineScript consoleScript
    ++ (libraryIncludes options.libraries ++ bodyStart)
    ++ inlineScript (settingsScript options.api)

theorem legible_front : Legible (fun options => (front options).toList) SameOptions := by
  have hlibraries := legible_libraries.of Options.libraries
  have hsettings := ((legible_settings.of Options.api).append_text
    "\n</script>\n".toList).text_append "<script>\n".toList
  have hall := legible_environment.append
    ((hlibraries.append hsettings).text_append (inlineScript consoleScript).toList)
  have hjoin : ∀ options, (front options).toList =
      (environment options).toList ++ ((inlineScript consoleScript).toList ++
        (((libraryIncludes options.libraries).toList ++ bodyStart.toList) ++
          ("<script>\n".toList ++
            ((settingsScript options.api).toList ++ "\n</script>\n".toList)))) := by
    intro options
    rw [← toList_inlineScript]
    simp only [front, String.toList_append, List.append_assoc]
  simp only [hjoin]
  refine hall.imp ?_
  rintro o p ⟨⟨hbaseUrl, htitle⟩, hlibraries, hapi⟩
  exact ⟨hbaseUrl, htitle, hlibraries, hapi⟩

def ending : String :=
  "\n</script>\n" ++ inlineScript mountScript ++ "</body>\n</html>\n"

theorem toList_build (script : String) (constants : Source.Constants) (options : Options) :
    (build script constants options).html.toList =
      (front options).toList ++
        ((constantsSection constants).toList ++ (script.toList ++ ending.toList)) := by
  have hprogram : programElement script = programStart ++ script ++ "\n</script>\n" := rfl
  unfold build
  simp only [hprogram, front, constantsSection, ending, bodyStart, String.toList_append,
    List.append_assoc]

theorem guestSettings_write {a b : DataApi} (h : SameSettings a b) :
    (guestSettings a).write = (guestSettings b).write := by
  obtain ⟨hurl, hanonKey, hserviceKey, hpollIntervalMs, hminQuantity, hlocationRpc⟩ := h
  simp only [guestSettings_eq, settingsFields, List.map_cons, List.map_nil, Json.write,
    Json.writeFields, hurl, hanonKey, hserviceKey, hpollIntervalMs, hminQuantity, hlocationRpc]

theorem front_eq {o p : Options} (h : SameOptions o p) : front o = front p := by
  obtain ⟨hbaseUrl, htitle, hlibraries, hapi⟩ := h
  unfold front environment settingsScript embeddedJson
  rw [hbaseUrl, htitle, hlibraries, guestSettings_write hapi]

/-- The text of a document tells its program, its constants and its options. -/
theorem build_html_eq_iff (script script' : String) (constants constants' : Source.Constants)
    (options options' : Options) :
    (build script constants options).html = (build script' constants' options').html ↔
      script = script' ∧ constants = constants' ∧ SameOptions options options' := by
  constructor
  · intro h
    have hchars := congrArg String.toList h
    rw [toList_build, toList_build] at hchars
    obtain ⟨hoptions, hbehind⟩ := legible_front hchars
    obtain ⟨hconstants, hprogram⟩ := legible_constantsSection hbehind
    have hscript := List.append_cancel_right hprogram
    exact ⟨String.toList_inj.1 hscript, hconstants, hoptions⟩
  · rintro ⟨rfl, rfl, hoptions⟩
    rw [← String.toList_inj, toList_build, toList_build, front_eq hoptions]

end LivePreview.Document
