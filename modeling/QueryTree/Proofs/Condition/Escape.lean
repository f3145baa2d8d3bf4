import QueryTree.Dialect.Reader
import QueryTree.Proofs.Nesting.Leaves
import QueryTree.Text.Quoted

/-!
# The escape character of patterns

A dialect may set the character that escapes the wildcards of patterns.  It is written behind each
pattern between two quotes, as it is.  A quote stands for itself in a string literal only if it is
written twice, so of all characters the quote is the one that is not read back.

* `Text.literal?` — the string literal at the beginning of a text, and what is behind it.
* `Text.literal?_quoted` — a quoted text is read back.
* `Text.literal?_singleton_iff` — a character between two quotes is read back unless it is a quote.
* `like_escape_reads_iff` — so is the escape character behind each pattern of each statement.
-/

namespace QueryTree

/-! ### String literals -/

namespace Text

/-- The characters of a string literal behind its opening quote, and what is behind the literal.  A
doubled quote stands for one, and any other ends the literal. -/
def literalFrom? : List Char → Option (List Char × List Char)
  | [] => none
  | c :: cs =>
    if c = '\'' then
      match cs with
      | [] => some ([], [])
      | d :: ds =>
        if d = '\'' then (literalFrom? ds).map fun r => (d :: r.1, r.2) else some ([], d :: ds)
    else (literalFrom? cs).map fun r => (c :: r.1, r.2)

/-- The characters of the string literal at the beginning of a text, and what is behind it. -/
def literal? : List Char → Option (List Char × List Char)
  | [] => none
  | c :: cs => if c = '\'' then literalFrom? cs else none

section

variable {rest : List Char}

theorem literalFrom?_quote (h : rest.head? ≠ some '\'') :
    literalFrom? ('\'' :: rest) = some ([], rest) := by
  cases rest with
  | nil => rfl
  | cons c rest =>
    have hc : c ≠ '\'' := fun he => h (congrArg some he)
    simp [literalFrom?, hc]

theorem literalFrom?_doubleQuotes (cs : List Char) (h : rest.head? ≠ some '\'') :
    literalFrom? (doubleQuotes cs ++ '\'' :: rest) = some (cs, rest) := by
  induction cs with
  | nil => exact literalFrom?_quote h
  | cons c cs ih =>
    rw [doubleQuotes]
    split
    · next hc => simp [literalFrom?, hc, ih]
    · next hc =>
      rw [List.cons_append, literalFrom?.eq_def]
      simp [hc, ih]

/-- **A quoted text is read back,** if no quote is behind it. -/
theorem literal?_quoted (s : String) (h : rest.head? ≠ some '\'') :
    literal? ((quoted s).toList ++ rest) = some (s.toList, rest) := by
  rw [quoted, String.toList_ofList, List.cons_append, List.append_assoc, literal?, if_pos rfl]
  exact literalFrom?_doubleQuotes s.toList h

theorem head?_of_literalFrom? {behind : List Char} (h : literalFrom? rest = some ([], behind)) :
    rest.head? = some '\'' := by
  cases rest with
  | nil => cases h
  | cons c cs =>
    by_cases hc : c = '\''
    · rw [hc]
      rfl
    · rw [literalFrom?.eq_def] at h
      simp [hc] at h

/-- **A character between two quotes is read back exactly if it is no quote.**  A quote is taken for
one half of a doubled quote, and the literal goes on behind it. -/
theorem literal?_singleton_iff (c : Char) {behind : List Char} (h : rest.head? ≠ some '\'') :
    literal? ('\'' :: c :: '\'' :: rest) = some ([c], behind) ↔ c ≠ '\'' ∧ behind = rest := by
  by_cases hc : c = '\''
  · refine iff_of_false (fun hr => ?_) (fun hn => hn.1 hc)
    -- the last two quotes are read as a doubled one, so the literal would end in `rest`
    rw [hc, literal?, if_pos rfl, literalFrom?, if_pos rfl] at hr
    obtain ⟨⟨cs, behind'⟩, hr, he⟩ := Option.map_eq_some_iff.1 hr
    have hcs : cs = [] := by simpa using congrArg Prod.fst he
    rw [hcs] at hr
    exact h (head?_of_literalFrom? hr)
  · have hquoted : (quoted (String.singleton c)).toList = ['\'', c, '\''] := by
      simp [quoted, doubleQuotes, hc]
    have hread : literal? ('\'' :: c :: '\'' :: rest) = some ([c], rest) := by
      rw [← String.toList_singleton, ← literal?_quoted (String.singleton c) h, hquoted]
      rfl
    rw [hread]
    simp [hc, eq_comm]

end

end Text

/-! ### Patterns -/

section

variable {d : Dialect} {t : String}

/-- What a text is read as, when it sets the escape character. -/
theorem Dialect.read_of_escape {s : String}
    (hs : (RawJson.parse? s).bind Dialect.ofRaw? = some d)
    (ht : d.custom.get? Dialect.likeEscapeKey = some t) :
    Dialect.read s = if t.length = 1 then .ok d else .error (.invalidLikeEscape t) := by
  rw [read, hs]
  show d.validate = _
  rw [validate, ht]

theorem escapeClause_of_singleton {c : Char}
    (ht : d.custom.get? Dialect.likeEscapeKey = some (String.singleton c)) :
    escapeClause d = [.text (" ESCAPE '" ++ String.singleton c ++ "'")] := by
  have hc : d.likeEscape = some c := by
    rw [Dialect.likeEscape, ht, Option.bind_some, String.toList_singleton]
    rfl
  rw [escapeClause, hc]

theorem hasText_pattern (p : Pattern) (key : String) (v : Value) (subs : List Node) :
    Node.HasText d ⟨.pattern p, key, some (.value v), subs⟩ :=
  ⟨rfl, rfl, isVoid_infixed key (Op.pattern p).symbol v (escapeClause d)⟩

theorem render_pattern {c : Char}
    (ht : d.custom.get? Dialect.likeEscapeKey = some (String.singleton c)) (p : Pattern)
    (key : String) (v : Value) (subs : List Node) (n : Numbering) :
    (Node.text d ⟨.pattern p, key, some (.value v), subs⟩).render d.placeholder n =
      key ++ " " ++ (Op.pattern p).symbol ++ " " ++ d.placeholder.mark n.arguments ++ " ESCAPE " ++
        ("'" ++ String.singleton c ++ "'") := by
  have htext : Node.text d ⟨.pattern p, key, some (.value v), subs⟩ =
      infixed key (Op.pattern p).symbol v ++ [.text (" ESCAPE '" ++ String.singleton c ++ "'")] := by
    rw [← escapeClause_of_singleton ht]
    rfl
  have hword : " ESCAPE '" = " ESCAPE " ++ "'" := by decide
  rw [htext, hword, infixed, List.cons_append, List.singleton_append]
  simp only [Fragment.render, Piece.render, String.append_assoc, String.append_empty]
  rfl

/-- **The escape character behind a pattern is read back unless it is a quote.**  Whatever text sets
the escape character of a dialect, the dialect is accepted exactly if it is one character.  Behind
each pattern that is written in a statement of a query or of a write stands the word "ESCAPE" and
then the character between two quotes.  This is a string literal of that character, and ends where
it is written to end, exactly if the character is no quote. -/
theorem like_escape_reads_iff {s : String} (hs : (RawJson.parse? s).bind Dialect.ofRaw? = some d)
    (ht : d.custom.get? Dialect.likeEscapeKey = some t) :
    (Dialect.read s = if t.length = 1 then .ok d else .error (.invalidLikeEscape t)) ∧
    (Dialect.read s = .ok d → ∃ c, t = String.singleton c ∧
      ∀ p key v subs statement,
        Node.CompiledIn d ⟨.pattern p, key, some (.value v), subs⟩ statement →
        ∃ lead k rest, statement.sql = lead ++
            (key ++ " " ++ (Op.pattern p).symbol ++ " " ++ d.placeholder.mark k ++ " ESCAPE ") ++
            ("'" ++ t ++ "'" ++ rest) ∧
          ∀ behind, Text.literal? ("'" ++ t ++ "'" ++ rest).toList = some ([c], behind) ↔
            c ≠ '\'' ∧ behind = rest.toList) := by
  have hread := Dialect.read_of_escape hs ht
  refine ⟨hread, fun hok => ?_⟩
  obtain ⟨c, rfl⟩ : ∃ c, t = String.singleton c := by
    by_cases hl : t.length = 1
    · obtain ⟨c, hc⟩ := List.length_eq_one_iff.1 (String.length_toList.trans hl)
      exact ⟨c, by rw [← String.toList_inj, hc, String.toList_singleton]⟩
    · rw [hread, if_neg hl] at hok
      cases hok
  refine ⟨c, rfl, fun p key v subs statement h => ?_⟩
  obtain ⟨lead, n, rest, hsql, hd⟩ := h.exists_sql (hasText_pattern p key v subs)
  refine ⟨lead, n.arguments, rest, ?_, fun behind => ?_⟩
  · rw [hsql, render_pattern ht]
    simp only [String.append_assoc]
  · -- behind the clause stands a word or the end, never another quote
    have hrest : rest.toList.head? ≠ some '\'' := fun hq => by
      have hdelimiter := hd _ hq
      revert hdelimiter
      decide
    have hlit : ("'" ++ String.singleton c ++ "'" ++ rest).toList =
        '\'' :: c :: '\'' :: rest.toList := by
      simp
    rw [hlit]
    exact Text.literal?_singleton_iff c hrest

/-- Three quotes are no literal of a quote. -/
theorem like_escape_reads_iff_of_quote :
    let n : Node := .ofValue (.pattern .contains) "a" (.text "%b%")
    let q : Query := ⟨.empty, [⟨"t", none, none, none, none⟩], [n], [], [], []⟩
    n.WrittenIn q ∧ ∃ s d, (RawJson.parse? s).bind Dialect.ofRaw? = some d ∧
      d.custom.get? Dialect.likeEscapeKey = some "'" ∧ Dialect.read s = .ok d ∧
      ∃ lead k rest, (q.toSelect d).sql =
          lead ++ ("a LIKE " ++ d.placeholder.mark k ++ " ESCAPE ") ++ ("'''" ++ rest) ∧
        ∀ behind, Text.literal? ("'''" ++ rest).toList ≠ some (['\''], behind) := by
  intro n q
  have hq : n.WrittenIn q := .conditions (.here List.mem_cons_self)
  have hget : ((RawJson.parse? "\x7b\"custom\":\x7b\"like_escape\":\"'\"\x7d\x7d").bind
      Dialect.ofRaw?).map (·.custom.get? Dialect.likeEscapeKey) = some (some "'") := by decide
  obtain ⟨d, hs, ht⟩ := Option.map_eq_some_iff.1 hget
  obtain ⟨hread, h⟩ := like_escape_reads_iff hs ht
  have hok := hread.trans (if_pos (by decide))
  obtain ⟨c, hc, h⟩ := h hok
  obtain ⟨lead, k, rest, hsql, hl⟩ := h _ _ _ _ _ (.rows hq)
  have hquote : ['\''] = [c] := by
    have hlist := congrArg String.toList hc
    rwa [String.toList_singleton] at hlist
  refine ⟨hq, _, d, hs, ht, hok, lead, k, rest, hsql, fun behind hr => ?_⟩
  rw [hquote] at hr
  exact ((hl behind).1 hr).1 (List.singleton_inj.1 hquote).symm

end

end QueryTree
