import Tangle.Proofs.UncarriedTags

/-!
# Flags over configurations

A setting is what the flag says, or else what the configuration says. So settings
have one source in effect: whatever comes from the configuration could as well have
been given as a flag (`mergeSettings_filled`), and where a flag is given the
configuration does not matter (`mergeSettings_congr`).

The two lists of tags are the only settings that share a branch. It is taken if one
of them is given, and then the other one is filtered a second time. By
`mergeSettings_filter` that comes to the same, and each list can be looked at by
itself.
-/

namespace Tangle

/-- The flags together with what the configuration says where they say nothing.
Comments are excluded if either says so. -/
def FilterFlags.filled (flags : FilterFlags) (c : Config) : FilterFlags where
  tags := flags.tags <|> some c.filter.tags
  excludeTags := flags.excludeTags <|> some c.filter.excludeTags
  excludeComments := flags.excludeComments || c.filter.excludeComments
  maxCommentDepth := flags.maxCommentDepth <|> c.filter.maxCommentDepth
  fileMode := flags.fileMode <|> some c.output.fileMode
  writeMode := flags.writeMode <|> some c.output.writeMode

/-- Two configurations agree on everything that the flags leave open. -/
structure FilterFlags.LeavesAlike (flags : FilterFlags) (c c' : Config) : Prop where
  tags : flags.tags = none → c.filter.tags = c'.filter.tags
  excludeTags : flags.excludeTags = none → c.filter.excludeTags = c'.filter.excludeTags
  excludeComments : flags.excludeComments = false →
    c.filter.excludeComments = c'.filter.excludeComments
  maxCommentDepth : flags.maxCommentDepth = none →
    c.filter.maxCommentDepth = c'.filter.maxCommentDepth
  fileMode : flags.fileMode = none → c.output.fileMode = c'.output.fileMode
  writeMode : flags.writeMode = none → c.output.writeMode = c'.output.writeMode

section

variable {c c' : Config} {flags : FilterFlags}

theorem getD_orElse_some {α : Type} (flag : Option α) (configured dflt : α) :
    (flag <|> some configured).getD dflt = flag.getD configured := by
  cases flag <;> rfl

theorem getD_congr_of_none {α : Type} {flag : Option α} {configured configured' : α}
    (h : flag = none → configured = configured') :
    flag.getD configured = flag.getD configured' := by
  cases flag with
  | none => exact h rfl
  | some => rfl

/-! ## Field by field -/

theorem mergeSettings_walker (c : Config) (flags : FilterFlags) :
    (mergeSettings c flags).options.walker =
      ⟨!(flags.excludeComments || c.filter.excludeComments),
        flags.maxCommentDepth <|> c.filter.maxCommentDepth⟩ := by
  rw [Bool.not_or]
  rfl

theorem mergeSettings_style (c : Config) (flags : FilterFlags) :
    (mergeSettings c flags).style =
      { policy := flags.writeMode.getD c.output.writeMode
        mode := flags.fileMode.getD c.output.fileMode } := rfl

/-- Settings are equal if what they are made of is. -/
theorem Settings.eq_of_parts {s s' : Settings}
    (hfilter : s.options.filter = s'.options.filter)
    (hwalker : s.options.walker = s'.options.walker) (hstyle : s.style = s'.style) :
    s = s' := by
  obtain ⟨⟨filter, walker⟩, style⟩ := s
  cases hfilter
  cases hwalker
  cases hstyle
  rfl

/-! ## Settings as a whole -/

theorem mergeSettings_filled (c : Config) (flags : FilterFlags) :
    mergeSettings c flags = mergeSettings {} (flags.filled c) := by
  refine Settings.eq_of_parts ?_ ?_ ?_
  · rw [mergeSettings_filter, mergeSettings_filter, FilterFlags.filled,
      getD_orElse_some, getD_orElse_some]
  · rw [mergeSettings_walker, mergeSettings_walker, FilterFlags.filled]
    simp
  · rw [mergeSettings_style, mergeSettings_style, FilterFlags.filled,
      getD_orElse_some, getD_orElse_some]

theorem mergeSettings_congr (h : flags.LeavesAlike c c') :
    mergeSettings c flags = mergeSettings c' flags := by
  refine Settings.eq_of_parts ?_ ?_ ?_
  · rw [mergeSettings_filter, mergeSettings_filter, getD_congr_of_none h.tags,
      getD_congr_of_none h.excludeTags]
  · have hcomments : (flags.excludeComments || c.filter.excludeComments) =
        (flags.excludeComments || c'.filter.excludeComments) := by
      cases hflag : flags.excludeComments with
      | true => rfl
      | false => exact congrArg _ (h.excludeComments hflag)
    have hdepth : (flags.maxCommentDepth <|> c.filter.maxCommentDepth) =
        (flags.maxCommentDepth <|> c'.filter.maxCommentDepth) := by
      cases hflag : flags.maxCommentDepth with
      | some => rfl
      | none => rw [h.maxCommentDepth hflag]
    rw [mergeSettings_walker, mergeSettings_walker, hcomments, hdepth]
  · rw [mergeSettings_style, mergeSettings_style, getD_congr_of_none h.writeMode,
      getD_congr_of_none h.fileMode]

end

/-- Flags override a configuration field by field.

The settings are those that the flags alone give once they are filled up from the
configuration. So what is configured matters only where no flag is given. Each list
of tags is the one that is given or else the configured one, whatever becomes of the
other, and without empty tags whichever side they come from. A list that is given
without tags is an empty one. -/
theorem flags_override (c : Config) (flags : FilterFlags) :
    let required := fun flags => (mergeSettings c flags).options.filter.required
    let excluded := fun flags => (mergeSettings c flags).options.filter.excluded
    mergeSettings c flags = mergeSettings {} (flags.filled c) ∧
    (∀ c', flags.LeavesAlike c c' → mergeSettings c flags = mergeSettings c' flags) ∧
    (∀ tags : List Text,
      let given := { flags with tags := some tags }
      required given = tags.filter (· ≠ []) ∧ excluded given = excluded flags ∧
        ((∀ tag ∈ tags, tag = []) → required given = [])) ∧
    (∀ tags : List Text,
      let given := { flags with excludeTags := some tags }
      excluded given = tags.filter (· ≠ []) ∧ required given = required flags ∧
        ((∀ tag ∈ tags, tag = []) → excluded given = [])) ∧
    (flags.tags = none → required flags = c.filter.tags.filter (· ≠ [])) ∧
    (flags.excludeTags = none →
      excluded flags = c.filter.excludeTags.filter (· ≠ [])) ∧
    [] ∉ required flags ∧ [] ∉ excluded flags := by
  intro required excluded
  have hlists (flags : FilterFlags) :
      required flags = (flags.tags.getD c.filter.tags).filter (· ≠ []) ∧
        excluded flags =
          (flags.excludeTags.getD c.filter.excludeTags).filter (· ≠ []) := by
    have h := mergeSettings_filter c flags
    exact ⟨congrArg TagFilter.required h, congrArg TagFilter.excluded h⟩
  have hcleared {tags : List Text} (h : ∀ tag ∈ tags, tag = []) :
      tags.filter (· ≠ []) = [] :=
    List.filter_eq_nil_iff.2 fun tag htag => by simp [h tag htag]
  refine ⟨mergeSettings_filled c flags, fun c' => mergeSettings_congr,
    fun tags => ⟨(hlists _).1, ?_, fun h => (hlists _).1.trans (hcleared h)⟩,
    fun tags => ⟨(hlists _).2, ?_, fun h => (hlists _).2.trans (hcleared h)⟩,
    fun h => ?_, fun h => ?_, ?_, ?_⟩
  · rw [(hlists _).2, (hlists flags).2]
  · rw [(hlists _).1, (hlists flags).1]
  · rw [(hlists flags).1, h, Option.getD_none]
  · rw [(hlists flags).2, h, Option.getD_none]
  · rw [(hlists flags).1, List.mem_filter]
    exact fun h => absurd rfl (of_decide_eq_true h.2)
  · rw [(hlists flags).2, List.mem_filter]
    exact fun h => absurd rfl (of_decide_eq_true h.2)

/-- A list that is cleared by a flag with one empty tag beside a configured list with
an empty tag in it. What was configured under the flags does not show. -/
theorem flags_override_cleared :
    let c : Config :=
      { filter :=
          { tags := ["ci".toList]
            excludeTags := ["slow".toList, []]
            maxCommentDepth := some 8 }
        output := { fileMode := ⟨0o644, by decide⟩, writeMode := .truncate } }
    let c' : Config :=
      { c with filter := { c.filter with tags := [], maxCommentDepth := none } }
    let flags : FilterFlags :=
      { tags := some [[]], excludeComments := true, maxCommentDepth := some 2 }
    flags.LeavesAlike c c' ∧ mergeSettings c flags = mergeSettings c' flags ∧
      (mergeSettings c flags).options.filter = ⟨[], ["slow".toList]⟩ ∧
      mergeSettings c flags = mergeSettings {} (flags.filled c) ∧
      (mergeSettings c { flags with excludeTags := some [[]] }).options.filter.excluded
        = [] := by
  intro c c' flags
  obtain ⟨hfilled, hcongr, htags, hexclude, -⟩ := flags_override c flags
  have hempty : ∀ tag ∈ [([] : Text)], tag = [] := by decide
  have halike : flags.LeavesAlike c c' :=
    ⟨nofun, fun _ => rfl, nofun, nofun, fun _ => rfl, fun _ => rfl⟩
  refine ⟨halike, hcongr c' halike, ?_, hfilled, (hexclude [[]]).2.2 hempty⟩
  exact congrArg₂ TagFilter.mk ((htags [[]]).2.2 hempty) (by decide)

end Tangle
