import Mathlib.Data.List.Find
import Mathlib.Data.List.Nodup
import TreeDump.Proofs.Languages.Registration
import TreeDump.Proofs.Run.Process

/-!
# The built-in languages

The pattern of a built-in language is searched for in an extension, so it is found wherever the
extension ends with that of the language, or does so before a line feed at its end.  No extension
ends with those of two languages, so the order of the languages does not matter.  The published
table lists whole extensions, which are fewer.

* `Expr.search_ending`: where an expression is found that spells an ending.
* `Registry.ofLanguages_bindings`: what is registered for built-in languages.
* `Language.builtin_eq_of_endsOf`: an extension ends with that of one language at most.
* `Registry.default_classify`: the binding of a path is that of the language that its extension ends
  with, and all other paths are left out.
* `Language.not_classifiesAsListed`: an extension that is listed for no language, but ends with one
  that is.
* `Registry.ofLanguages_perm`, `Registry.default_unrivalled`: what holds of all orders of languages.
-/

namespace TreeDump

/-! ## Searching for an ending -/

namespace Pattern

/-- The characters of an ending one after the other, and then the end of the text, or of its last
line. -/
def Expr.ending : List Char → Expr
  | [] => .assertion .lastLineEnd
  | c :: rest => .seq (Flags.literal {} c.toNat) (ending rest)

theorem contains_literal (c d : Char) :
    (CharSet.mk [.range c.toNat c.toNat] false .none false).contains d = (d == c) := by
  have hCode : (c.toNat ≤ d.toNat ∧ d.toNat ≤ c.toNat) ↔ d = c := by
    rw [← Char.toNat_inj]
    omega
  simp [CharSet.contains, CharSet.itemContains, Folding.fold, Folding.variants, ← hCode,
    Bool.beq_eq_decide_eq]

/-- An expression that spells an ending matches just where nothing else follows, but for a line
feed. -/
theorem Expr.run_ending (cs : List Char) (s : Spot) :
    ((ending cs).run some s).isSome ↔ s.after = cs ∨ s.after = cs ++ ['\n'] := by
  induction cs generalizing s with
  | nil => simp [ending, run, Assertion.holds]
  | cons c rest ih =>
    obtain ⟨before, after, groups⟩ := s
    cases after with
    | nil => simp [ending, Flags.literal, Flags.charSet, run, Spot.step?]
    | cons d after =>
      simp only [ending, Flags.literal, Flags.charSet, Flags.folding, run, Spot.step?,
        Bool.not_false, if_true, contains_literal, List.cons_append, List.cons.injEq]
      by_cases hChar : d = c
      · subst hChar
        simpa using ih ⟨d :: before, after, groups⟩
      · simp [hChar]

/-- What is found does not depend on what stands before, if matching does not. -/
theorem Expr.searchFrom_isSome_iff {e : Expr} {found : List Char → Prop}
    (hRun : ∀ before after, (e.run some ⟨before, after, []⟩).isSome ↔ found after)
    (before text : List Char) : (e.searchFrom before text).isSome ↔ ∃ rest, rest <:+ text ∧ found rest := by
  induction text generalizing before with
  | nil => simp [searchFrom, hRun]
  | cons c rest ih =>
    rw [searchFrom]
    have hHere := hRun before (c :: rest)
    cases hFound : e.run some ⟨before, c :: rest, []⟩ with
    | some spot =>
      rw [hFound] at hHere
      simp only [Option.isSome_some, true_iff] at hHere ⊢
      exact ⟨c :: rest, List.suffix_refl _, hHere⟩
    | none =>
      rw [hFound] at hHere
      simp only [Option.isSome_none, Bool.false_eq_true, false_iff] at hHere
      simp only [ih, List.suffix_cons_iff]
      constructor
      · rintro ⟨tail, hTail, hLater⟩
        exact ⟨tail, Or.inr hTail, hLater⟩
      · rintro ⟨tail, rfl | hTail, hLater⟩
        · exact (hHere hLater).elim
        · exact ⟨tail, hTail, hLater⟩

/-- An expression that spells an ending is found in the texts that end with it, and in those with a
line feed after it. -/
theorem Expr.search_ending (cs text : List Char) :
    ((ending cs).search text).isSome ↔ cs <:+ text ∨ cs ++ ['\n'] <:+ text := by
  have hRun : ∀ before after, ((ending cs).run some ⟨before, after, []⟩).isSome ↔
      after = cs ∨ after = cs ++ ['\n'] := fun before after => run_ending cs ⟨before, after, []⟩
  rw [search, searchFrom_isSome_iff hRun]
  constructor
  · rintro ⟨rest, hRest, rfl | rfl⟩
    · exact Or.inl hRest
    · exact Or.inr hRest
  · rintro (hEnd | hEnd)
    · exact ⟨cs, hEnd, Or.inl rfl⟩
    · exact ⟨cs ++ ['\n'], hEnd, Or.inr rfl⟩

end Pattern

/-! ## Endings of extensions -/

/-- A text without the line feed at its end, if there is one. -/
def withoutLineFeed (cs : List Char) : List Char :=
  if cs.getLast? = some '\n' then cs.dropLast else cs

theorem suffix_withoutLineFeed_iff {cs text : List Char} (hSome : cs ≠ [])
    (hLast : cs.getLast? ≠ some '\n') :
    cs <:+ withoutLineFeed text ↔ cs <:+ text ∨ cs ++ ['\n'] <:+ text := by
  rcases List.eq_nil_or_concat text with rfl | ⟨front, c, rfl⟩
  · simp [withoutLineFeed]
  have hNot : ∀ d, cs <:+ front ++ [d] → d ≠ '\n' := by
    rintro d ⟨before, hBefore⟩ rfl
    apply hLast
    have hEnd := congrArg List.getLast? hBefore
    rw [List.getLast?_concat, List.getLast?_append] at hEnd
    cases hLast' : cs.getLast? with
    | none => exact absurd (List.getLast?_eq_none_iff.mp hLast') hSome
    | some d => simpa [hLast'] using hEnd
  by_cases hFeed : c = '\n'
  · subst hFeed
    have hAfter : cs ++ ['\n'] <:+ front ++ ['\n'] ↔ cs <:+ front := by
      rw [List.suffix_concat_iff]
      simp
    simp only [withoutLineFeed, List.concat_eq_append, List.getLast?_concat, if_true,
      List.dropLast_concat, hAfter]
    constructor
    · exact Or.inr
    · rintro (hEnd | hEnd)
      · exact (hNot _ hEnd rfl).elim
      · exact hEnd
  · have hAfter : ¬ cs ++ ['\n'] <:+ front ++ [c] := by
      rintro ⟨before, hBefore⟩
      rw [← List.append_assoc] at hBefore
      exact hFeed (List.append_inj_right' hBefore rfl |> List.singleton_inj.mp).symm
    simp [withoutLineFeed, hFeed, hAfter]

/-! ## The table and the registry -/

namespace Language

/-- That the table of languages lists the extension of a path for a language. -/
def Lists (l : Language) (path : String) : Prop :=
  ∃ extension, extensionOf? path = some extension ∧ "." ++ extension ∈ l.extensions

/-- That the extension of a path ends with one that is listed for a language, given without its dot,
but for a line feed after it. -/
def EndsOf (l : Language) (path : String) : Prop :=
  ∃ extension, extensionOf? path = some extension ∧
    ∃ listed ∈ l.extensions, listed.toList.tail <:+ withoutLineFeed extension.toList

/-- The binding of a built-in language. -/
def binding (l : Language) : Binding :=
  ⟨⟨l.pattern, .ending l.ending.toList⟩, l.id, l.name⟩

/-- What is registered for a built-in language. -/
def registration (l : Language) : Registration := ⟨l.pattern, l.id, l.name, false⟩

/-- An ending that is good for a pattern: it has characters, and the last of them is no line
feed. -/
def IsPlain (l : Language) : Prop := l.ending.toList ≠ [] ∧ l.ending.toList.getLast? ≠ some '\n'

theorem builtin_eq_of_id {a b : Language} (hA : a ∈ builtin) (hB : b ∈ builtin)
    (hId : a.id = b.id) : a = b := by
  have hDistinct : (builtin.map Language.id).Nodup := by decide
  exact List.inj_on_of_nodup_map hDistinct hA hB hId

theorem binding?_registration {l : Language} (h : l ∈ builtin) :
    l.registration.binding? = some l.binding := by
  have hAll : (builtin.all fun l => l.registration.binding? == some l.binding) = true := by
    decide
  exact beq_iff_eq.mp (List.all_eq_true.mp hAll l h)

theorem isPlain_of_builtin {l : Language} (h : l ∈ builtin) : l.IsPlain := by
  revert l
  simp [builtin, IsPlain]

theorem endsOf_iff {l : Language} {path : String} : l.EndsOf path ↔
    ∃ extension, extensionOf? path = some extension ∧
      l.ending.toList <:+ withoutLineFeed extension.toList := by
  simp [EndsOf, extensions]

theorem Lists.endsOf {l : Language} {path : String} (hPlain : l.IsPlain) (h : l.Lists path) :
    l.EndsOf path := by
  obtain ⟨extension, hExtension, hListed⟩ := h
  obtain rfl : extension = l.ending := by
    simpa [extensions, String.ext_iff] using hListed
  refine endsOf_iff.mpr ⟨_, hExtension, ?_⟩
  exact (suffix_withoutLineFeed_iff hPlain.1 hPlain.2).mpr (Or.inl (List.suffix_refl _))

/-- A binding has the paths whose extension ends with that of its language. -/
theorem binding_matchesPath_iff {l : Language} {path : String} (hPlain : l.IsPlain) :
    l.binding.matchesPath path ↔ l.EndsOf path := by
  rw [endsOf_iff, Binding.matchesPath, Option.any_eq_true]
  refine exists_congr fun extension => and_congr_right fun _ => ?_
  rw [Binding.matchesExtension, binding, Pattern.Expr.search_ending,
    suffix_withoutLineFeed_iff hPlain.1 hPlain.2]

/-- No text ends with the endings of two built-in languages. -/
theorem builtin_eq_of_suffix {a b : Language} {text : List Char} (hA : a ∈ builtin)
    (hB : b ∈ builtin) (hEndA : a.ending.toList <:+ text) (hEndB : b.ending.toList <:+ text) :
    a = b := by
  have hApart : (builtin.all fun a => builtin.all fun b =>
      a == b || !(a.ending.toList.isSuffixOf b.ending.toList)) = true := by decide
  have hPair : ∀ a ∈ builtin, ∀ b ∈ builtin, a.ending.toList <:+ b.ending.toList → a = b := by
    simp only [List.all_eq_true, Bool.or_eq_true, Bool.not_eq_true', beq_iff_eq] at hApart
    intro a hA b hB hSuffix
    exact (hApart a hA b hB).resolve_right (by simpa using hSuffix)
  rcases List.suffix_or_suffix_of_suffix hEndA hEndB with hSuffix | hSuffix
  · exact hPair a hA b hB hSuffix
  · exact (hPair b hB a hA hSuffix).symm

/-- The extension of a path ends with that of one built-in language at most. -/
theorem builtin_eq_of_endsOf {a b : Language} {path : String} (hA : a ∈ builtin)
    (hB : b ∈ builtin) (hPathA : a.EndsOf path) (hPathB : b.EndsOf path) : a = b := by
  obtain ⟨extension, hExtension, hEndA⟩ := endsOf_iff.mp hPathA
  obtain ⟨other, hOther, hEndB⟩ := endsOf_iff.mp hPathB
  obtain rfl := Option.some.inj (hExtension.symm.trans hOther)
  exact builtin_eq_of_suffix hA hB hEndA hEndB

end Language

namespace Registry

theorem ofLanguages_eq (languages : List Language) :
    ofLanguages languages = registerAll {} (languages.map Language.registration) := by
  unfold ofLanguages registerAll
  rw [List.foldl_map]
  rfl

/-- Built-in languages are registered in the order in which they are given. -/
theorem ofLanguages_bindings {languages : List Language} (h : ∀ l ∈ languages, l ∈ Language.builtin) :
    (ofLanguages languages).bindings = languages.map Language.binding := by
  have hRegistered : languages.filterMap (Registration.binding? ∘ Language.registration)
      = languages.filterMap (some ∘ Language.binding) :=
    List.filterMap_congr fun l hMember => Language.binding?_registration (h l hMember)
  rw [ofLanguages_eq, registerAll_bindings, List.filterMap_map, hRegistered, List.filterMap_eq_map]
  rfl

/-- Every built-in language is registered, in the order of the table. -/
theorem default_bindings : Registry.default.bindings = Language.builtin.map Language.binding :=
  ofLanguages_bindings fun _ h => h

/-- The first binding that has a path is that of the language that the extension ends with. -/
theorem default_classify_of_endsOf {l : Language} {path : String} (hBuiltin : l ∈ Language.builtin)
    (hPath : l.EndsOf path) : Registry.default.classify path = some l.binding := by
  have hMatches := (Language.binding_matchesPath_iff (Language.isPlain_of_builtin hBuiltin)).mpr hPath
  rw [classify, default_bindings]
  cases hFound : (Language.builtin.map Language.binding).find? (·.matchesPath path) with
  | none =>
    rw [List.find?_eq_none] at hFound
    exact (hFound _ (List.mem_map_of_mem hBuiltin) hMatches).elim
  | some found =>
    obtain ⟨other, hOther, rfl⟩ := List.mem_map.mp (List.mem_of_find?_eq_some hFound)
    have hEnds := (Language.binding_matchesPath_iff (Language.isPlain_of_builtin hOther)).mp
      (List.find?_some (p := fun b : Binding => b.matchesPath path) hFound)
    rw [Language.builtin_eq_of_endsOf hOther hBuiltin hEnds hPath]

theorem default_classify_eq_none_iff {path : String} :
    Registry.default.classify path = none ↔ ∀ l ∈ Language.builtin, ¬ l.EndsOf path := by
  rw [classify, default_bindings, List.find?_eq_none, List.forall_mem_map]
  refine forall_congr' fun l => forall_congr' fun hBuiltin => not_congr ?_
  exact Language.binding_matchesPath_iff (Language.isPlain_of_builtin hBuiltin)

theorem exists_of_default_classify {path : String} {b : Binding}
    (h : Registry.default.classify path = some b) :
    ∃ l ∈ Language.builtin, l.EndsOf path ∧ b = l.binding := by
  have hSome : ¬ ∀ l ∈ Language.builtin, ¬ l.EndsOf path := by
    simp [← default_classify_eq_none_iff, h]
  simp only [not_forall, not_not] at hSome
  obtain ⟨l, hBuiltin, hPath⟩ := hSome
  rw [default_classify_of_endsOf hBuiltin hPath] at h
  exact ⟨l, hBuiltin, hPath, (Option.some.inj h).symm⟩

/-- In a default run, a path has the binding of a language just if its extension, but for a line
feed at its end, ends with one that is listed for the language, as every extension does that is
listed itself; no other path has a binding.  So the files that are not left out as unsupported are
those whose extension ends with a listed one. -/
theorem default_classify (path : String) :
    (∀ l ∈ Language.builtin, l.Lists path → l.EndsOf path) ∧
    (∀ l ∈ Language.builtin, l.EndsOf path ↔
      ∃ b, Registry.default.classify path = some b ∧ b.name = l.name ∧ b.languageId = l.id) ∧
    (Registry.default.classify path = none ↔ ∀ l ∈ Language.builtin, ¬ l.EndsOf path) ∧
    ∀ (grammars : GrammarSource) (options : ProcessOptions) (fs : FileSystem) (pool : Pool),
      let p : Processor := { grammars, options := { options with strict := false } }
      (p.process fs path pool).1 = .skipped path "unsupported" ↔
        ∀ l ∈ Language.builtin, ¬ l.EndsOf path := by
  refine ⟨?_, ?_, default_classify_eq_none_iff, ?_⟩
  · intro l hBuiltin hListed
    exact hListed.endsOf (Language.isPlain_of_builtin hBuiltin)
  · intro l hBuiltin
    constructor
    · intro hPath
      exact ⟨l.binding, default_classify_of_endsOf hBuiltin hPath, rfl, rfl⟩
    · rintro ⟨b, hClassify, -, hId⟩
      obtain ⟨other, hOther, hPath, rfl⟩ := exists_of_default_classify hClassify
      rwa [← Language.builtin_eq_of_id hOther hBuiltin hId]
  · intro grammars options fs pool p
    exact (Processor.process_unsupported_iff rfl).trans default_classify_eq_none_iff

/-- The extension of a file is listed, whatever dots there are in its directory. -/
theorem default_classify_listed :
    let l : Language := ⟨"rs", "rust", "Rust"⟩
    l ∈ Language.builtin ∧ l.Lists "lib.py/v1.0/main.rs" ∧
      ∃ b, Registry.default.classify "lib.py/v1.0/main.rs" = some b ∧ b.name = "Rust" := by
  intro l
  have hBuiltin : l ∈ Language.builtin := by decide
  have hListed : l.Lists "lib.py/v1.0/main.rs" := ⟨"rs", by decide, by decide⟩
  obtain ⟨hEndsOf, hBinding, -⟩ := default_classify "lib.py/v1.0/main.rs"
  obtain ⟨b, hClassify, hName, -⟩ := (hBinding l hBuiltin).mp (hEndsOf l hBuiltin hListed)
  exact ⟨hBuiltin, hListed, b, hClassify, hName⟩

/-! ## The order of the languages -/

/-- The order of built-in languages does not matter: no path belongs to two of them. -/
theorem ofLanguages_perm {order languages : List Language} (hOrder : order.Perm languages)
    (h : ∀ l ∈ languages, l ∈ Language.builtin) (path : String) :
    (ofLanguages order).classify path = (ofLanguages languages).classify path := by
  have hOrdered : ∀ l ∈ order, l ∈ Language.builtin := fun l hMember =>
    h l (hOrder.mem_iff.mp hMember)
  unfold classify
  rw [ofLanguages_bindings h, ofLanguages_bindings hOrdered]
  apply List.find?_eq_find?_of_perm (hOrder.map Language.binding)
  rintro _ ⟨hFirst, hFirstFound⟩ _ ⟨hSecond, hSecondFound⟩
  obtain ⟨a, hA, rfl⟩ := List.mem_map.mp hFirst
  obtain ⟨b, hB, rfl⟩ := List.mem_map.mp hSecond
  have hPathA := (Language.binding_matchesPath_iff (Language.isPlain_of_builtin (hOrdered a hA))).mp
    hFirstFound
  have hPathB := (Language.binding_matchesPath_iff (Language.isPlain_of_builtin (hOrdered b hB))).mp
    hSecondFound
  rw [Language.builtin_eq_of_endsOf (hOrdered a hA) (hOrdered b hB) hPathA hPathB]

end Registry

/-- That what is registered for a language is found in the extension of a path. -/
def Language.IsFoundIn (l : Language) (path : String) : Prop :=
  ∃ b, l.registration.binding? = some b ∧ b.FoundIn path

theorem Language.isFoundIn_iff {l : Language} {path : String} (hBuiltin : l ∈ builtin) :
    l.IsFoundIn path ↔ l.EndsOf path := by
  have hPlain := isPlain_of_builtin hBuiltin
  unfold IsFoundIn
  rw [binding?_registration hBuiltin, ← binding_matchesPath_iff hPlain, Binding.matchesPath_iff]
  constructor
  · rintro ⟨b, hBinding, hFound⟩
    obtain rfl := Option.some.inj hBinding
    exact hFound
  · exact fun hFound => ⟨l.binding, rfl, hFound⟩

/-- The pattern of one built-in language at most is found in the extension of a path, so whatever
order they are registered in, a path has the same binding.  It is that of the language with whose
ending the extension ends, the line feed at its end left out if there is one. -/
theorem Registry.default_unrivalled (path : String) :
    (∀ a ∈ Language.builtin, ∀ b ∈ Language.builtin,
      a.IsFoundIn path → b.IsFoundIn path → a = b) ∧
    (∀ order : List Language, order.Perm Language.builtin →
      (ofLanguages order).classify path = Registry.default.classify path) ∧
    ∀ l ∈ Language.builtin,
      (∃ b, Registry.default.classify path = some b ∧ b.languageId = l.id ∧ b.name = l.name) ↔
        ∃ extension, HasExtension path extension ∧
          l.ending.toList <:+ withoutLineFeed extension.toList := by
  refine ⟨?_, ?_, ?_⟩
  · intro a hA b hB hFoundA hFoundB
    exact Language.builtin_eq_of_endsOf hA hB ((Language.isFoundIn_iff hA).mp hFoundA)
      ((Language.isFoundIn_iff hB).mp hFoundB)
  · intro order hOrder
    exact ofLanguages_perm hOrder (fun _ h => h) path
  · intro l hBuiltin
    simp only [← extensionOf?_eq_some_iff]
    rw [← Language.endsOf_iff]
    constructor
    · rintro ⟨b, hClassify, hId, -⟩
      obtain ⟨other, hOther, hPath, rfl⟩ := exists_of_default_classify hClassify
      rwa [← Language.builtin_eq_of_id hOther hBuiltin hId]
    · intro hPath
      exact ⟨l.binding, default_classify_of_endsOf hBuiltin hPath, rfl, rfl⟩

/-- The languages registered backwards, and an extension with a line feed at its end. -/
theorem Registry.default_unrivalled_backwards :
    let order := Language.builtin.reverse
    let l : Language := ⟨"tsx", "tsx", "TSX"⟩
    order.Perm Language.builtin ∧ l ∈ Language.builtin ∧
      ∃ b, (ofLanguages order).classify "ts/App.tsx\n" = some b ∧ b.name = l.name := by
  intro order l
  obtain ⟨-, hOrder, hChosen⟩ := default_unrivalled "ts/App.tsx\n"
  have hPerm : order.Perm Language.builtin := List.reverse_perm _
  have hBuiltin : l ∈ Language.builtin := by decide
  have hExtension : HasExtension "ts/App.tsx\n" "tsx\n" :=
    extensionOf?_eq_some_iff.mp (by decide)
  obtain ⟨b, hClassify, -, hName⟩ := (hChosen l hBuiltin).mpr ⟨"tsx\n", hExtension, by decide⟩
  exact ⟨hPerm, hBuiltin, b, (hOrder order hPerm).trans hClassify, hName⟩

/-- That the registry has exactly the extensions that the table lists. -/
def Language.ClassifiesAsListed : Prop :=
  ∀ path, (∀ l ∈ builtin, l.Lists path →
      ∃ b, Registry.default.classify path = some b ∧ b.name = l.name) ∧
    ((∀ l ∈ builtin, ¬ l.Lists path) → Registry.default.classify path = none)

/-- The extension `mts` is listed for no language, but it ends with the one of TypeScript. -/
theorem Language.not_classifiesAsListed : ¬ ClassifiesAsListed := by
  intro hListed
  have hExtension : extensionOf? "index.mts" = some "mts" := by decide
  have hNone : ∀ l ∈ builtin, ¬ l.Lists "index.mts" := by
    rintro l hBuiltin ⟨extension, hSome, hMember⟩
    obtain rfl := Option.some.inj (hExtension.symm.trans hSome)
    have hApart : (builtin.all fun l => !l.extensions.contains ("." ++ "mts")) = true := by decide
    have hNot := List.all_eq_true.mp hApart l hBuiltin
    rw [List.contains_iff_mem.mpr hMember] at hNot
    cases hNot
  have hEnds : (⟨"ts", "typescript", "TypeScript"⟩ : Language).EndsOf "index.mts" :=
    endsOf_iff.mpr ⟨"mts", hExtension, ['m'], by decide⟩
  have hTypeScript := Registry.default_classify_of_endsOf (by decide) hEnds
  cases hTypeScript.symm.trans ((hListed "index.mts").2 hNone)

end TreeDump
