import ManifestRelay.Glob.Braces
import ManifestRelay.Glob.Scope

/-!
# What expansion keeps of a glob

Expanding a group puts one of its alternatives in the place of the group.  What
survives every such replacement therefore holds of every plain glob that a glob
stands for: the text before the first metacharacter stays in front, and behind
it stand only characters of the rest of the glob, in their old order.
-/

namespace ManifestRelay.Glob

/-! ### One group -/

theorem eq_of_closeGroup {depth : Nat} {text body after : List Glyph}
    (h : closeGroup depth text = some (body, after)) :
    ∃ closing, text = body ++ closing :: after := by
  fun_induction closeGroup depth text generalizing body after with
  | case1 => simp at h
  | case2 g rest _ =>
      obtain ⟨rfl, rfl⟩ : [] = body ∧ rest = after := by simpa using h
      exact ⟨g, rfl⟩
  | case3 | case4 | case5 =>
      rename_i ih
      obtain ⟨⟨inner, tail⟩, hinner, heq⟩ := Option.map_eq_some_iff.1 h
      obtain ⟨rfl, rfl⟩ : _ :: inner = body ∧ tail = after := by simpa using heq
      obtain ⟨closing, rfl⟩ := ih hinner
      exact ⟨closing, rfl⟩

theorem eq_of_split {glob before body after : List Glyph}
    (h : split glob = .group before body after) :
    ∃ opening closing, glob = before ++ opening :: body ++ closing :: after := by
  rw [split] at h
  split at h
  · cases h
  · next opening inner hrest =>
      split at h
      · cases h
      · next inside tail hclose =>
          obtain ⟨rfl, rfl, rfl⟩ : _ = before ∧ inside = body ∧ tail = after := by
            simpa using h
          obtain ⟨closing, hinner⟩ := eq_of_closeGroup hclose
          refine ⟨opening, closing, ?_⟩
          calc glob
            _ = glob.takeWhile (·.role != .opening) ++ glob.dropWhile (·.role != .opening) :=
                List.takeWhile_append_dropWhile.symm
            _ = _ := by rw [hrest, hinner, List.append_assoc, List.cons_append]

theorem sublist_of_mem_extend {g : Glyph} {parts : List (List Glyph)} {text part : List Glyph}
    (nonempty : parts ≠ []) (hparts : ∀ part ∈ parts, part.Sublist text)
    (h : part ∈ alternatives.extend g parts) : part.Sublist (g :: text) := by
  cases parts with
  | nil => exact absurd rfl nonempty
  | cons first others =>
      rcases List.mem_cons.1 h with rfl | hother
      · exact (hparts first List.mem_cons_self).cons_cons g
      · exact (hparts part (List.mem_cons_of_mem first hother)).cons g

theorem sublist_of_mem_alternatives {depth : Nat} {text part : List Glyph}
    (h : part ∈ alternatives depth text) : part.Sublist text := by
  fun_induction alternatives depth text generalizing part with
  | case1 => simp_all
  | case2 g rest _ ih =>
      rcases List.mem_cons.1 h with rfl | hother
      · exact List.nil_sublist _
      · exact (ih hother).cons g
  | case3 | case4 | case5 =>
      rename_i ih
      exact sublist_of_mem_extend (alternatives_ne_nil _ _) (fun _ => ih) h

theorem sublist_of_group {glob before body after part : List Glyph}
    (h : split glob = .group before body after) (hpart : part ∈ alternatives 0 body) :
    (before ++ part ++ after).Sublist glob := by
  obtain ⟨opening, closing, rfl⟩ := eq_of_split h
  have hbody := (sublist_of_mem_alternatives hpart).cons opening
  exact ((List.Sublist.refl before).append hbody).append (List.sublist_cons_self closing after)

theorem split_append {literal text : List Glyph} (plain : ∀ g ∈ literal, g.role ≠ .opening) :
    split (literal ++ text) = match split text with
      | .plain => .plain
      | .unclosed => .unclosed
      | .group before body after => .group (literal ++ before) body after := by
  have hplain : ∀ g ∈ literal, (g.role != .opening) = true := by simpa using plain
  rw [split, split, List.dropWhile_append_of_pos hplain, List.takeWhile_append_of_pos hplain]
  cases text.dropWhile (·.role != .opening) with
  | nil => rfl
  | cons opening inner =>
      cases hclose : closeGroup 0 inner with
      | none => simp [hclose]
      | some parts => simp [hclose]

/-! ### All groups -/

/-- What every replacement of a group keeps holds of all plain globs. -/
theorem forall_of_expandAll {P : List Glyph → Prop}
    (keeps : ∀ glob before body after part, P glob → split glob = .group before body after →
      part ∈ alternatives 0 body → P (before ++ part ++ after))
    {pending found plain : List (List Glyph)} (h : expandAll pending found = .ok plain)
    (hpending : ∀ glob ∈ pending, P glob) (hfound : ∀ glob ∈ found, P glob) :
    ∀ glob ∈ plain, P glob := by
  fun_induction expandAll pending found with
  | case1 found =>
      cases h
      exact hfound
  | case2 found glob others _ ih =>
      obtain ⟨hglob, hothers⟩ := List.forall_mem_cons.1 hpending
      exact ih h hothers (List.forall_mem_cons.2 ⟨hglob, hfound⟩)
  | case3 => cases h
  | case4 => cases h
  | case5 found glob others before body after hsplit parts waiting _ ih =>
      obtain ⟨hglob, hothers⟩ := List.forall_mem_cons.1 hpending
      refine ih h (fun text htext => ?_) hfound
      rcases List.mem_append.1 htext with hpart | hother
      · obtain ⟨part, hmem, rfl⟩ := List.mem_map.1 (List.mem_reverse.1 hpart)
        exact keeps glob before body after part hglob hsplit hmem
      · exact hothers text hother

theorem glyphs_append_of_plain {literal : List Char} (plain : ∀ c ∈ literal, c ∉ metaChars)
    (rest : List Char) :
    glyphs (literal ++ rest) = literal.map (fun c => ⟨c, roleOf c⟩) ++ glyphs rest := by
  induction literal with
  | nil => rfl
  | cons c more ih =>
      obtain ⟨hc, hmore⟩ := List.forall_mem_cons.1 plain
      have hescape : c ≠ '\\' := fun heq => hc (heq ▸ by decide)
      have hclass : (c == '[') = false := by
        simpa using fun heq : c = '[' => hc (heq ▸ by decide)
      have hstep : glyphsFrom false (c :: (more ++ rest)) =
          ⟨c, roleOf c⟩ :: glyphsFrom (c == '[') (more ++ rest) := by
        rw [glyphsFrom]
        · simp [hescape]
        · simp [hescape]
      rw [List.cons_append, glyphs, hstep, hclass]
      exact congrArg _ (ih hmore)

theorem role_of_plain {literal : List Char} (plain : ∀ c ∈ literal, c ∉ metaChars) :
    ∀ g ∈ literal.map (fun c => (⟨c, roleOf c⟩ : Glyph)), g.role ≠ .opening := by
  intro g hg
  obtain ⟨c, hc, rfl⟩ := List.mem_map.1 hg
  intro hrole
  have hbrace : c = '\x7b' := by
    simp only [roleOf] at hrole
    split at hrole <;> first | rfl | cases hrole
  exact plain c hc (hbrace ▸ by decide)

def GoesOn (front rest text : List Glyph) : Prop :=
  ∃ more, text = front ++ more ∧ more.Sublist rest

namespace GoesOn

theorem group
    {front rest glob before body after part : List Glyph}
    (goesOn : GoesOn front rest glob) (plain : ∀ g ∈ front, g.role ≠ .opening)
    (hsplit : split glob = .group before body after) (hpart : part ∈ alternatives 0 body) :
    GoesOn front rest (before ++ part ++ after) := by
  obtain ⟨more, rfl, hmore⟩ := goesOn
  rw [split_append plain] at hsplit
  split at hsplit
  · cases hsplit
  · cases hsplit
  · next inner body' after' hinner =>
      obtain ⟨rfl, rfl, rfl⟩ : front ++ inner = before ∧ body' = body ∧ after' = after := by
        simpa using hsplit
      refine ⟨inner ++ part ++ after', by simp [List.append_assoc], ?_⟩
      exact (sublist_of_group hinner hpart).trans hmore

end GoesOn

/-- Every plain glob begins with the literal text that the glob begins with, and goes on with
characters of the rest of the glob. -/
theorem eq_append_of_mem_expand {literal rest : List Char} {plain : List (List Char)}
    (hliteral : ∀ c ∈ literal, c ∉ metaChars) (h : expand (literal ++ rest) = .ok plain)
    {glob : List Char} (hglob : glob ∈ plain) :
    ∃ more : List Char, glob = literal ++ more ∧ more.Sublist rest := by
  rw [expand, glyphs_append_of_plain hliteral] at h
  have hfront := role_of_plain hliteral
  generalize hchars : literal.map (fun c => (⟨c, roleOf c⟩ : Glyph)) = front at h hfront
  cases hall : expandAll [front ++ glyphs rest] [] with
  | error e =>
      rw [hall] at h
      cases h
  | ok texts =>
      rw [hall] at h
      cases h
      obtain ⟨text, htext, rfl⟩ := List.mem_map.1 hglob
      obtain ⟨more, rfl, hmore⟩ : GoesOn front (glyphs rest) text :=
        forall_of_expandAll (fun _ _ _ _ _ kept => kept.group hfront) hall
          (by simpa using ⟨glyphs rest, rfl, List.Sublist.refl _⟩) (by simp) text htext
      have hliteral : front.map Glyph.char = literal := by
        rw [← hchars, List.map_map]
        exact List.map_id literal
      refine ⟨more.map Glyph.char, by rw [List.map_append, hliteral], ?_⟩
      simpa [map_char_glyphs] using hmore.map Glyph.char

end ManifestRelay.Glob
