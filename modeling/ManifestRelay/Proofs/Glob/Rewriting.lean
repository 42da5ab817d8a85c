import Mathlib
import ManifestRelay.Proofs.Glob.Alternatives

/-!
# Expansion as rewriting of text

Expansion can be done on the text of globs alone: as long as a text has a group, it is replaced by
the texts with one alternative each in the place of the group, and every text is read from its
start again.  A brace or comma that is group syntax stands outside escapes and classes, so that
what is cut at it is read as it was read before.  Therefore rewriting text comes to what expansion
comes to, which is the list of choices in written order.
-/

namespace ManifestRelay.Glob

def letters (text : List Glyph) : List Char := text.map Glyph.char

theorem letters_append (text more : List Glyph) :
    letters (text ++ more) = letters text ++ letters more :=
  List.map_append

/-! ### Reading again -/

/-- Glyphs as they are read from inside a class or outside one, up to inside one or outside again.
No escape is cut off at their end. -/
inductive Reads : Bool → List Glyph → Bool → Prop where
  | nil (inClass : Bool) : Reads inClass [] inClass
  | escape {first last : Bool} {rest : List Glyph} (c : Char) (h : Reads first rest last) :
      Reads first (.plain '\\' :: .plain c :: rest) last
  | inside {last : Bool} {rest : List Glyph} {c : Char} (ordinary : c ≠ '\\')
      (h : Reads (c != ']') rest last) : Reads true (.plain c :: rest) last
  | outside {last : Bool} {rest : List Glyph} {c : Char} (ordinary : c ≠ '\\')
      (h : Reads (c == '[') rest last) : Reads false (⟨c, roleOf c⟩ :: rest) last

theorem glyphsFrom_inside {c : Char} (ordinary : c ≠ '\\') (rest : List Char) :
    glyphsFrom true (c :: rest) = .plain c :: glyphsFrom (c != ']') rest := by
  rw [glyphsFrom] <;> simp_all

theorem glyphsFrom_outside {c : Char} (ordinary : c ≠ '\\') (rest : List Char) :
    glyphsFrom false (c :: rest) = ⟨c, roleOf c⟩ :: glyphsFrom (c == '[') rest := by
  rw [glyphsFrom] <;> simp_all

theorem eq_false_of_roleOf {c : Char} (h : roleOf c ≠ .text) : (c == '[') = false := by
  rw [beq_eq_false_iff_ne]
  rintro rfl
  exact h rfl

namespace Reads

variable {first last : Bool} {text : List Glyph}

theorem glyphsFrom_append (h : Reads first text last) (more : List Char) :
    glyphsFrom first (letters text ++ more) = text ++ glyphsFrom last more := by
  induction h with
  | nil => rfl
  | escape c _ ih =>
      have hstep (inClass : Bool) (rest : List Char) : glyphsFrom inClass ('\\' :: c :: rest) =
          .plain '\\' :: .plain c :: glyphsFrom inClass rest := by
        rw [glyphsFrom]
      exact (hstep _ _).trans (congrArg (.plain '\\' :: .plain c :: ·) ih)
  | inside ordinary _ ih => exact (glyphsFrom_inside ordinary _).trans (congrArg (_ :: ·) ih)
  | outside ordinary _ ih => exact (glyphsFrom_outside ordinary _).trans (congrArg (_ :: ·) ih)

theorem glyphs_eq (h : Reads false text last) : glyphs (letters text) = text := by
  have hread := h.glyphsFrom_append []
  rw [List.append_nil, glyphsFrom, List.append_nil] at hread
  exact hread

end Reads

theorem ne_of_no_escape {c : Char} {rest : List Char} (last : c = '\\' → rest = [] → False)
    (escape : ∀ d more, c = '\\' → rest = d :: more → False) : c ≠ '\\' := by
  intro hc
  cases rest with
  | nil => exact last hc rfl
  | cons d more => exact escape d more hc rfl

/-- Group syntax stands outside escapes and classes: what is in front of it and what is behind it
are read apart from each other, though a class may be left open at the end of the glob. -/
theorem cut_glyphsFrom {inClass : Bool} {glob : List Char} {before after : List Glyph} {mark : Glyph}
    (syntactic : mark.role ≠ .text) (h : glyphsFrom inClass glob = before ++ mark :: after) :
    Reads inClass before false ∧ glyphs (letters after) = after := by
  fun_induction glyphsFrom inClass glob generalizing before with
  | case1 => cases before <;> cases h
  | case2 =>
      rcases before with _ | ⟨g, _ | ⟨g', before⟩⟩
      · obtain ⟨rfl, -⟩ := List.cons.inj h
        exact absurd rfl syntactic
      · cases (List.cons.inj h).2
      · cases (List.cons.inj h).2
  | case3 inClass c rest ih =>
      rcases before with _ | ⟨g, _ | ⟨g', before⟩⟩
      · obtain ⟨rfl, -⟩ := List.cons.inj h
        exact absurd rfl syntactic
      · obtain ⟨rfl, -⟩ := List.cons.inj (List.cons.inj h).2
        exact absurd rfl syntactic
      · obtain ⟨rfl, hrest⟩ := List.cons.inj h
        obtain ⟨rfl, hmore⟩ := List.cons.inj hrest
        obtain ⟨hbefore, hafter⟩ := ih hmore
        exact ⟨.escape c hbefore, hafter⟩
  | case4 c rest hlast hescape ih =>
      rcases before with _ | ⟨g, before⟩
      · obtain ⟨rfl, -⟩ := List.cons.inj h
        exact absurd rfl syntactic
      · obtain ⟨rfl, hrest⟩ := List.cons.inj h
        obtain ⟨hbefore, hafter⟩ := ih hrest
        exact ⟨.inside (ne_of_no_escape hlast hescape) hbefore, hafter⟩
  | case5 c rest hlast hescape ih =>
      rcases before with _ | ⟨g, before⟩
      · obtain ⟨rfl, rfl⟩ := List.cons.inj h
        rw [eq_false_of_roleOf syntactic]
        refine ⟨.nil false, ?_⟩
        rw [letters, map_char_glyphsFrom]
        rfl
      · obtain ⟨rfl, hrest⟩ := List.cons.inj h
        obtain ⟨hbefore, hafter⟩ := ih hrest
        exact ⟨.outside (ne_of_no_escape hlast hescape) hbefore, hafter⟩

/-! ### Replacing a group -/

/-- Parts of a text between commas that are group syntax. -/
inductive Joined : List (List Glyph) → List Glyph → Prop where
  | last (part : List Glyph) : Joined [part] part
  | more {text : List Glyph} {parts : List (List Glyph)} {comma : Glyph} (part : List Glyph)
      (role : comma.role = .comma) (h : Joined parts text) :
      Joined (part :: parts) (part ++ comma :: text)

theorem Joined.extend {parts : List (List Glyph)} {text : List Glyph} (h : Joined parts text)
    (g : Glyph) : Joined (alternatives.extend g parts) (g :: text) := by
  cases h with
  | last => exact .last (g :: text)
  | more part role more => exact .more (g :: part) role more

theorem joined_alternatives (depth : Nat) (text : List Glyph) :
    Joined (alternatives depth text) text := by
  fun_induction alternatives depth text with
  | case1 => exact .last []
  | case2 g rest role ih => exact .more [] role ih
  | case3 | case4 | case5 =>
      rename_i ih
      exact ih.extend _

theorem Joined.reads {parts : List (List Glyph)} {text after : List Glyph} {mark : Glyph}
    (h : Joined parts text) (syntactic : mark.role ≠ .text)
    (read : glyphs (letters (text ++ mark :: after)) = text ++ mark :: after) :
    ∀ part ∈ parts, Reads false part false := by
  induction h with
  | last part => exact List.forall_mem_singleton.2 (cut_glyphsFrom syntactic read).1
  | @more text parts comma part role _ ih =>
      have hcomma : comma.role ≠ .text := by
        rw [role]
        exact nofun
      rw [List.append_assoc, List.cons_append] at read
      obtain ⟨hpart, hrest⟩ := cut_glyphsFrom hcomma read
      exact List.forall_mem_cons.2 ⟨hpart, ih hrest⟩

/-- Replacing a group by its alternatives does not change how anything is read. -/
theorem read_of_group {text before body after : List Glyph} (h : glyphs (letters text) = text)
    (hsplit : split text = .group before body after) : glyphs (letters body) = body ∧
      ∀ part ∈ alternatives 0 body,
        glyphs (letters (before ++ part ++ after)) = before ++ part ++ after := by
  obtain ⟨-, -, opening, closing, hopening, hclosing, rfl⟩ := split_eq_group hsplit
  have hsyntactic : opening.role ≠ .text ∧ closing.role ≠ .text := by
    rw [hopening, hclosing]
    exact ⟨nofun, nofun⟩
  rw [List.append_assoc, List.cons_append] at h
  obtain ⟨hbefore, hinner⟩ := cut_glyphsFrom hsyntactic.1 h
  obtain ⟨hbody, hafter⟩ := cut_glyphsFrom hsyntactic.2 hinner
  refine ⟨hbody.glyphs_eq, fun part hpart => ?_⟩
  have hread := (joined_alternatives 0 body).reads hsyntactic.2 hinner part hpart
  calc glyphs (letters (before ++ part ++ after))
    _ = glyphsFrom false (letters before ++ (letters part ++ letters after)) := by
        rw [letters_append, letters_append, List.append_assoc, glyphs]
    _ = before ++ (part ++ glyphs (letters after)) := by
        rw [hbefore.glyphsFrom_append, hread.glyphsFrom_append, glyphs]
    _ = before ++ part ++ after := by rw [hafter, List.append_assoc]

/-! ### The loop -/

/-- One turn of the loop, for the text that is written last of those still to be expanded. It gives
what is still to be expanded after it, and what has been found by then, in written order. -/
def rewriteOnce (text : List Char) (others found : List (List Char)) :
    Except BraceError (List (List Char) × List (List Char)) :=
  match split (glyphs text) with
  | .plain => .ok (others, text :: found)
  | .unclosed => .error .unclosed
  | .group before body after =>
      let parts := (alternatives 0 (glyphs (letters body))).map fun part =>
        letters before ++ letters part ++ letters after
      let waiting := parts.reverse ++ others
      if found.length + waiting.length > maxAlternatives then .error .tooMany
      else .ok (waiting, found)

inductive Rewrites :
    List (List Char) → List (List Char) → Except BraceError (List (List Char)) → Prop where
  | done (found : List (List Char)) : Rewrites [] found (.ok found)
  | refuse {text : List Char} {others found : List (List Char)} {reason : BraceError}
      (turn : rewriteOnce text others found = .error reason) :
      Rewrites (text :: others) found (.error reason)
  | goOn {text : List Char} {others found waiting more : List (List Char)}
      {result : Except BraceError (List (List Char))}
      (turn : rewriteOnce text others found = .ok (waiting, more))
      (rest : Rewrites waiting more result) : Rewrites (text :: others) found result

theorem Rewrites.unique {pending found : List (List Char)}
    {first second : Except BraceError (List (List Char))} (hfirst : Rewrites pending found first)
    (hsecond : Rewrites pending found second) : first = second := by
  induction hfirst with
  | done =>
      cases hsecond
      rfl
  | refuse turn =>
      cases hsecond with
      | refuse other =>
          rw [turn] at other
          cases other
          rfl
      | goOn other =>
          rw [turn] at other
          cases other
  | goOn turn _ ih =>
      cases hsecond with
      | refuse other =>
          rw [turn] at other
          cases other
      | goOn other rest =>
          rw [turn] at other
          cases other
          exact ih rest

/-- Expansion is what the loop ends with. -/
theorem rewrites_expandAll {pending found : List (List Glyph)}
    (read : ∀ text ∈ pending, glyphs (letters text) = text) :
    Rewrites (pending.map letters) (found.map letters)
      ((expandAll pending found).map (·.map letters)) := by
  fun_induction expandAll pending found with
  | case1 found => exact .done _
  | case2 found glob others hsplit ih =>
      obtain ⟨hglob, hothers⟩ := List.forall_mem_cons.1 read
      refine .goOn ?_ (ih hothers)
      rw [rewriteOnce, hglob, hsplit]
      rfl
  | case3 found glob others hsplit =>
      refine .refuse ?_
      rw [rewriteOnce, read glob List.mem_cons_self, hsplit]
  | case4 found glob others before body after hsplit parts waiting hmany =>
      obtain ⟨hglob, -⟩ := List.forall_mem_cons.1 read
      obtain ⟨hbody, -⟩ := read_of_group hglob hsplit
      refine .refuse ?_
      rw [rewriteOnce, hglob, hsplit]
      simpa [hbody, waiting, parts] using hmany
  | case5 found glob others before body after hsplit parts waiting hfew ih =>
      obtain ⟨hglob, hothers⟩ := List.forall_mem_cons.1 read
      obtain ⟨hbody, hparts⟩ := read_of_group hglob hsplit
      have hread : ∀ text ∈ waiting, glyphs (letters text) = text := by
        refine List.forall_mem_append.2 ⟨fun text htext => ?_, hothers⟩
        obtain ⟨part, hpart, rfl⟩ := List.mem_map.1 (List.mem_reverse.1 htext)
        exact hparts part hpart
      refine .goOn ?_ (ih hread)
      have hwaiting : waiting.map letters = ((alternatives 0 body).map fun part =>
          letters before ++ letters part ++ letters after).reverse ++ others.map letters := by
        simp [waiting, parts, letters]
      rw [rewriteOnce, hglob, hsplit]
      dsimp only
      rw [hbody, ← hwaiting, List.length_map, List.length_map, if_neg hfew]

/-- Expansion is what the loop over texts ends with, on every glob.  It succeeds if and only if every
opening brace is matched and the glob stands for no more texts than allowed, and then it lists what
the glob stands for: one text for each way to choose in its groups, in the order in which they are
written. -/
theorem expand_lists_choices (glob : List Char) :
    (∀ result, Rewrites [glob] [] result ↔ result = expand glob) ∧
    (IsMatched (glyphs glob) ↔ ∃ row : Row, row.Describes glob) ∧
    ((∃ plain, expand glob = .ok plain) ↔ IsMatched (glyphs glob) ∧
      ∀ row : Row, row.Describes glob → row.count ≤ maxAlternatives) ∧
    ∀ row : Row, row.Describes glob → ∀ plain, expand glob = .ok plain →
      plain = row.choices.map letters := by
  have hloop : Rewrites [glob] [] (expand glob) := by
    have hread : glyphs (letters (glyphs glob)) = glyphs glob := by
      rw [letters, map_char_glyphs]
    have hrun : Rewrites ([glyphs glob].map letters) ([].map letters) (expand glob) :=
      rewrites_expandAll (List.forall_mem_singleton.2 hread)
    rw [List.map_singleton] at hrun
    rw [letters, map_char_glyphs] at hrun
    exact hrun
  refine ⟨fun result => ⟨fun h => h.unique hloop, fun h => h ▸ hloop⟩,
    isMatched_iff_describes glob, ⟨?_, ?_⟩, ?_⟩
  · rintro ⟨plain, h⟩
    refine ⟨isMatched_of_expand h, fun row describes => ?_⟩
    by_contra hmany
    rw [expand_of_describes describes, if_neg hmany] at h
    cases h
  · rintro ⟨matched, bounded⟩
    obtain ⟨row, describes⟩ := (isMatched_iff_describes glob).1 matched
    rw [expand_of_describes describes, if_pos (bounded row describes)]
    exact ⟨_, rfl⟩
  · intro row describes plain h
    rw [expand_of_describes describes] at h
    split at h
    · exact (Except.ok.inj h).symm
    · cases h

/-- The choices in a group with a group in it; the comma of the class behind it is no syntax. -/
theorem expand_lists_choices_nested :
    ∃ row : Row, row.Describes "{a,b{c,d}}[,]".toList ∧
      expand "{a,b{c,d}}[,]".toList = .ok ["a[,]".toList, "bc[,]".toList, "bd[,]".toList] ∧
      ["a[,]".toList, "bc[,]".toList, "bd[,]".toList] = row.choices.map letters := by
  let inner : Choice := .more (.single (.plain 'c') .nil) (.last (.single (.plain 'd') .nil))
  let outer : Choice :=
    .more (.single (.plain 'a') .nil) (.last (.single (.plain 'b') (.group inner .nil)))
  let row : Row := .group outer
    (.single (.plain '[') (.single (.plain ',') (.single (.plain ']') .nil)))
  have describes : row.Describes "{a,b{c,d}}[,]".toList :=
    ⟨by simp [row, outer, inner, Row.IsSound, Choice.IsSound, Glyph.plain], by decide⟩
  have hexpand : expand "{a,b{c,d}}[,]".toList =
      .ok ["a[,]".toList, "bc[,]".toList, "bd[,]".toList] := by cbv
  exact ⟨row, describes, hexpand, (expand_lists_choices _).2.2.2 row describes _ hexpand⟩

end ManifestRelay.Glob
