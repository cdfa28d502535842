import Mathlib.Data.List.Basic
import Tangle.Markdown.Block

/-!
# Blocks from events

The collector holds at most one block, and text is put into it whatever brings the
text. So it goes by the starts and ends alone, and the events between them matter
for nothing but their texts. Where starts and ends come in pairs (`Paired`), two
facts carry everything: outside of the pairs no block is open and text is dropped
(`collect_outside`), and inside of one the block that is open gathers all text up to
the end (`collect_inside`).

A run of events in pairs leaves no block open, so it can be cut behind any pair
(`ofEvents_append`). What the collector makes of it is then read off without the
collector: for each start the block that begins there, with the text up to the next
end (`spanned`).
-/

namespace Tangle.Markdown

namespace Event

/-- The block that begins with this event, for a given literal. -/
def opens? : Event → Option (Text → Block)
  | .startCode info => some (.code (info.getD []))
  | .startHtml => some .html
  | _ => none

def opens (e : Event) : Bool := e.opens?.isSome

def closes : Event → Bool
  | .endCode | .endHtml => true
  | _ => false

/-- Whether a block begins or ends with this event. -/
def isBracket (e : Event) : Bool := e.opens || e.closes

/-- The text that an event brings, whatever that is part of. -/
def content : Event → Text
  | .text s | .html s => s
  | _ => []

/-- A start and the end of the same kind of block. -/
inductive EndedBy : Event → Event → Prop
  | code (info : Option Text) : EndedBy (.startCode info) .endCode
  | html : EndedBy .startHtml .endHtml

variable {e start stop : Event}

theorem opens_of_opens? {close : Text → Block} (h : e.opens? = some close) :
    e.opens = true := by
  rw [opens, h, Option.isSome_some]

theorem isBracket_of_opens (h : e.opens = true) : e.isBracket = true := by
  rw [isBracket, h, Bool.true_or]

theorem isBracket_of_closes (h : e.closes = true) : e.isBracket = true := by
  rw [isBracket, h, Bool.or_true]

theorem opens_of_not_isBracket (h : e.isBracket = false) : e.opens = false :=
  (Bool.or_eq_false_iff.1 h).1

theorem closes_of_not_isBracket (h : e.isBracket = false) : e.closes = false :=
  (Bool.or_eq_false_iff.1 h).2

theorem opens_of_closes (h : e.closes = true) : e.opens = false := by
  cases e with
  | endCode | endHtml => rfl
  | startCode | startHtml | text | html | other => cases h

theorem closes_of_opens (h : e.opens = true) : e.closes = false := by
  cases e with
  | startCode | startHtml => rfl
  | endCode | endHtml | text | html | other => cases h

namespace EndedBy

theorem exists_opens? (h : EndedBy start stop) :
    ∃ close, start.opens? = some close := by
  cases h with
  | code info => exact ⟨_, rfl⟩
  | html => exact ⟨_, rfl⟩

theorem opens (h : EndedBy start stop) : start.opens = true := by
  obtain ⟨_, hclose⟩ := h.exists_opens?
  exact opens_of_opens? hclose

theorem closes (h : EndedBy start stop) : stop.closes = true := by
  cases h with
  | code info => rfl
  | html => rfl

end EndedBy

end Event

/-! ## Pairs -/

/-- Starts and ends in turn, each start directly in front of its end. -/
inductive Alternating : List Event → Prop
  | nil : Alternating []
  | pair {start stop : Event} {rest : List Event} (hends : start.EndedBy stop)
      (hrest : Alternating rest) : Alternating (start :: stop :: rest)

/-- Starts and ends are paired and no pair lies in another one, whatever events
stand between them. -/
def Paired (es : List Event) : Prop := Alternating (es.filter Event.isBracket)

/-- Nothing begins or ends among the events. -/
def Unbracketed (es : List Event) : Prop := ∀ e ∈ es, e.isBracket = false

theorem Unbracketed.filter_eq_nil {es : List Event} (h : Unbracketed es) :
    es.filter Event.isBracket = [] := by
  rw [List.filter_eq_nil_iff]
  intro e he
  rw [h e he]
  exact Bool.false_ne_true

theorem unbracketed_map {event : Text → Event} (h : ∀ s, (event s).isBracket = false)
    (lines : List Text) : Unbracketed (lines.map event) := by
  intro e he
  obtain ⟨s, -, rfl⟩ := List.mem_map.1 he
  exact h s

namespace Alternating

theorem append {front back : List Event} (hfront : Alternating front)
    (hback : Alternating back) : Alternating (front ++ back) := by
  induction hfront with
  | nil => exact hback
  | pair hends _ ih => exact .pair hends ih

/-- In front of a start all pairs are complete. -/
theorem front {front behind : List Event} {start : Event} (hopens : start.opens = true)
    (h : Alternating (front ++ start :: behind)) : Alternating front := by
  generalize hall : front ++ start :: behind = all at h
  induction h generalizing front with
  | nil => exact absurd hall (by simp)
  | pair hends _ ih =>
      match front with
      | [] => exact .nil
      | [first] =>
          -- the event behind the first start is its end and opens nothing
          obtain ⟨-, rfl, -⟩ : first = _ ∧ start = _ ∧ behind = _ := by simpa using hall
          rw [Event.opens_of_closes hends.closes] at hopens
          cases hopens
      | first :: second :: front =>
          obtain ⟨rfl, rfl, hrest⟩ : first = _ ∧ second = _ ∧ _ = _ := by
            simpa using hall
          exact .pair hends (ih hrest)

theorem countP_closes {es : List Event} (h : Alternating es) :
    es.countP Event.closes = es.countP Event.opens := by
  induction h with
  | nil => rfl
  | pair hends _ ih =>
      simp [ih, hends.opens, hends.closes,
        Event.closes_of_opens hends.opens, Event.opens_of_closes hends.closes]

end Alternating

/-- Events cut into pairs and what is outside of them. -/
inductive Spans : List Event → Prop
  | outside {es : List Event} (h : Unbracketed es) : Spans es
  | pair {outer inner rest : List Event} {start stop : Event}
      (houter : Unbracketed outer) (hinner : Unbracketed inner)
      (hends : start.EndedBy stop) (hrest : Spans rest) :
      Spans (outer ++ start :: (inner ++ stop :: rest))

namespace Paired

/-- Events in pairs can be cut at their starts and ends. -/
theorem spans {es : List Event} (h : Paired es) : Spans es := by
  rw [Paired] at h
  generalize hall : es.filter Event.isBracket = all at h
  induction h generalizing es with
  | nil =>
      refine .outside fun e he => ?_
      rw [List.filter_eq_nil_iff] at hall
      exact Bool.eq_false_iff.2 (hall e he)
  | pair hends _ ih =>
      obtain ⟨outer, behind, rfl, houter, -, hbehind⟩ := List.filter_eq_cons_iff.1 hall
      obtain ⟨inner, rest, rfl, hinner, -, hrest⟩ := List.filter_eq_cons_iff.1 hbehind
      exact .pair (fun e he => Bool.eq_false_iff.2 (houter e he))
        (fun e he => Bool.eq_false_iff.2 (hinner e he)) hends (ih hrest)

variable {before after : List Event} {start : Event}

theorem front (hopens : start.opens = true) (h : Paired (before ++ start :: after)) :
    Paired before := by
  rw [Paired, List.filter_append,
    List.filter_cons_of_pos (Event.isBracket_of_opens hopens)] at h
  exact h.front hopens

end Paired

/-! ## The collector -/

namespace Block

variable {es outer inner rest : List Event} {start stop e : Event}
  {close : Text → Block}

theorem collect_start (h : start.opens? = some close) (current : Option OpenBlock)
    (es : List Event) : collect current (start :: es) = collect (some { close }) es := by
  cases start with
  | startCode info => cases h; rfl
  | startHtml => cases h; rfl
  | endCode | endHtml | text | html | other => cases h

theorem collect_stop (h : stop.closes = true) (current : Option OpenBlock)
    (es : List Event) : collect current (stop :: es) =
      (current.map OpenBlock.finish).toList ++ collect none es := by
  cases stop with
  | endCode => rfl
  | endHtml => rfl
  | startCode | startHtml | text | html | other => cases h

/-- While no block is open, text goes nowhere. -/
theorem collect_none_cons (h : e.isBracket = false) (es : List Event) :
    collect none (e :: es) = collect none es := by
  cases e with
  | text s => rfl
  | html s => rfl
  | other => rfl
  | startCode | startHtml | endCode | endHtml => cases h

theorem collect_outside (h : Unbracketed outer) (es : List Event) :
    collect none (outer ++ es) = collect none es := by
  induction outer with
  | nil => rfl
  | cons e outer ih =>
      rw [List.cons_append, collect_none_cons (h e (List.mem_cons_self ..))]
      exact ih fun f hf => h f (List.mem_cons_of_mem _ hf)

/-- The block that is open gathers what the events up to its end bring, behind what
it has gathered already. -/
theorem collect_inside (hinner : Unbracketed inner) (hstop : stop.closes = true)
    (b : OpenBlock) (rest : List Event) :
    collect (some b) (inner ++ stop :: rest) =
      b.close (b.pieces.reverse.flatten ++ inner.flatMap Event.content) ::
        collect none rest := by
  induction inner generalizing b with
  | nil =>
      rw [List.nil_append, collect_stop hstop, List.flatMap_nil, List.append_nil]
      rfl
  | cons e inner ih =>
      have hrest : Unbracketed inner := fun f hf => hinner f (List.mem_cons_of_mem _ hf)
      rw [List.cons_append, List.flatMap_cons]
      -- text becomes the last piece; any other event that opens and ends nothing is
      -- passed over
      cases e with
      | text s | html s =>
          rw [collect, Option.map_some, ih hrest]
          simp [OpenBlock.add, Event.content]
      | other =>
          rw [collect, ih hrest]
          rfl
      | startCode | startHtml | endCode | endHtml =>
          cases hinner _ (List.mem_cons_self ..)

theorem collect_pair (hinner : Unbracketed inner) (hclose : start.opens? = some close)
    (hstop : stop.closes = true) (current : Option OpenBlock) (rest : List Event) :
    collect current (start :: (inner ++ stop :: rest)) =
      close (inner.flatMap Event.content) :: collect none rest := by
  rw [collect_start hclose, collect_inside hinner hstop]
  rfl

/-! ## What is collected -/

/-- For each start the block that begins there, with all text up to the next end. -/
def spanned : List Event → List Block
  | [] => []
  | e :: es =>
    (e.opens?.map fun close =>
      close ((es.takeWhile fun f => !f.closes).flatMap Event.content)).toList ++
    spanned es

theorem spanned_cons_of_not_opens (h : e.opens = false) (es : List Event) :
    spanned (e :: es) = spanned es := by
  rw [Event.opens, Option.isSome_eq_false_iff, Option.isNone_iff_eq_none] at h
  rw [spanned, h]
  rfl

theorem spanned_outside (h : Unbracketed outer) (es : List Event) :
    spanned (outer ++ es) = spanned es := by
  induction outer with
  | nil => rfl
  | cons e outer ih =>
      have he := h e (List.mem_cons_self ..)
      rw [List.cons_append, spanned_cons_of_not_opens (Event.opens_of_not_isBracket he)]
      exact ih fun f hf => h f (List.mem_cons_of_mem _ hf)

theorem spanned_pair (hinner : Unbracketed inner) (hclose : start.opens? = some close)
    (hstop : stop.closes = true) (rest : List Event) :
    spanned (start :: (inner ++ stop :: rest)) =
      close (inner.flatMap Event.content) :: spanned rest := by
  have hopen : ∀ e ∈ inner, (!e.closes) = true := fun e he => by
    rw [Event.closes_of_not_isBracket (hinner e he), Bool.not_false]
  have hend (rest : List Event) :
      (stop :: rest).takeWhile (fun e => !e.closes) = [] :=
    List.takeWhile_cons_of_neg (by rw [hstop]; exact Bool.false_ne_true)
  rw [spanned, hclose, List.takeWhile_append_of_pos hopen, hend, List.append_nil,
    spanned_outside hinner, spanned_cons_of_not_opens (Event.opens_of_closes hstop)]
  rfl

/-- Events in pairs leave no block open: what comes behind them is collected as if
it came first. -/
theorem collect_append (h : Spans es) (more : List Event) :
    collect none (es ++ more) = spanned es ++ collect none more := by
  induction h with
  | @outside es hes =>
      have hnone := spanned_outside hes []
      rw [List.append_nil] at hnone
      rw [collect_outside hes, hnone]
      rfl
  | pair houter hinner hends _ ih =>
      obtain ⟨close, hclose⟩ := hends.exists_opens?
      rw [List.append_assoc, List.cons_append, List.append_assoc, List.cons_append,
        collect_outside houter, collect_pair hinner hclose hends.closes, ih,
        spanned_outside houter, spanned_pair hinner hclose hends.closes,
        List.cons_append]

theorem ofEvents_eq_spanned (h : Paired es) : ofEvents es = spanned es := by
  have hnothing := collect_append h.spans []
  rw [List.append_nil] at hnothing
  rw [ofEvents, hnothing]
  exact List.append_nil _

theorem ofEvents_append (h : Paired es) (more : List Event) :
    ofEvents (es ++ more) = ofEvents es ++ ofEvents more := by
  rw [ofEvents_eq_spanned h]
  exact collect_append h.spans more

theorem length_spanned (es : List Event) :
    (spanned es).length = es.countP Event.opens := by
  induction es with
  | nil => rfl
  | cons e es ih =>
      rw [spanned, List.length_append, ih, List.countP_cons, Event.opens]
      cases e.opens? with
      | none => simp
      | some close => simp [Nat.add_comm]

/-- There are as many ends as starts. -/
theorem countP_closes (h : Paired es) :
    es.countP Event.closes = es.countP Event.opens := by
  have hbrackets (p : Event → Bool) (hp : ∀ e, p e = true → e.isBracket = true) :
      es.countP p = (es.filter Event.isBracket).countP p := by
    rw [List.countP_filter]
    exact List.countP_congr fun e _ => by simpa using hp e
  rw [hbrackets _ fun _ => Event.isBracket_of_closes,
    hbrackets _ fun _ => Event.isBracket_of_opens]
  exact Alternating.countP_closes h

/-- What the collector makes of events in pairs.

It makes one block for each start, in order, with the text of all events up to the
next end, and there are as many ends as starts. So a pair gives one block, whatever
stands in front of it or behind it; an event outside of every pair could as well be
missing; and no block is left open, since more events are collected as if they came
first. -/
theorem ofEvents_of_paired (h : Paired es) :
    ofEvents es = spanned es ∧
    (ofEvents es).length = es.countP Event.opens ∧
    (ofEvents es).length = es.countP Event.closes ∧
    (∀ before start inner stop after,
      es = before ++ start :: (inner ++ stop :: after) → start.EndedBy stop →
      Unbracketed inner → ∃ close, start.opens? = some close ∧
        ofEvents es = ofEvents before ++
          close (inner.flatMap Event.content) :: ofEvents after) ∧
    (∀ before e after, es = before ++ e :: after → Paired before →
      e.isBracket = false → ofEvents es = ofEvents (before ++ after)) ∧
    ∀ more, ofEvents (es ++ more) = ofEvents es ++ ofEvents more := by
  have hlength : (ofEvents es).length = es.countP Event.opens := by
    rw [ofEvents_eq_spanned h, length_spanned]
  refine ⟨ofEvents_eq_spanned h, hlength, ?_, ?_, ?_, ofEvents_append h⟩
  · rw [hlength, countP_closes h]
  · rintro before start inner stop after rfl hends hinner
    obtain ⟨close, hclose⟩ := hends.exists_opens?
    refine ⟨close, hclose, ?_⟩
    rw [ofEvents_append (h.front hends.opens)]
    exact congrArg _ (collect_pair hinner hclose hends.closes none after)
  · rintro before e after rfl hbefore he
    rw [ofEvents_append hbefore, ofEvents_append hbefore]
    exact congrArg _ (collect_none_cons he after)

/-- Text in front of all blocks, between two of them and behind the last, a block in
pieces with something else between these, and an empty block. -/
theorem ofEvents_of_paired_interleaved :
    let text : String → Text := String.toList
    let es : List Event := [.other, .text (text "prose"),
      .startCode (some (text "go ci")), .text (text "a\n"), .other, .html (text "b\n"),
      .endCode, .html (text "<b>"), .startHtml, .html (text "<!--\n"),
      .text (text "-->"), .endHtml, .startCode none, .endCode, .text (text "cell")]
    Paired es ∧
      ofEvents es = [.code (text "go ci") (text "a\nb\n"), .html (text "<!--\n-->"),
        .code [] []] ∧
      es.countP Event.closes = 3 := by
  intro text es
  have hpaired : Paired es := .pair (.code _) (.pair .html (.pair (.code _) .nil))
  obtain ⟨hblocks, -, hends, -⟩ := ofEvents_of_paired hpaired
  have hspanned : spanned es = [.code (text "go ci") (text "a\nb\n"),
      .html (text "<!--\n-->"), .code [] []] := by decide +kernel
  rw [hspanned] at hblocks
  rw [hblocks] at hends
  exact ⟨hpaired, hblocks, hends.symm⟩

end Block

/-! ## The events of a document -/

theorem Paired.append {front back : List Event} (hfront : Paired front)
    (hback : Paired back) : Paired (front ++ back) := by
  rw [Paired, List.filter_append]
  exact Alternating.append hfront hback

theorem Leaf.paired_events (leaf : Leaf) : Paired leaf.events := by
  cases leaf with
  | code info lines =>
      have hlines : Unbracketed (lines.map .text) := unbracketed_map (fun _ => rfl) lines
      rw [Paired, Leaf.events, List.filter_append, List.filter_cons_of_pos rfl,
        hlines.filter_eq_nil]
      exact .pair (.code info) .nil
  | html lines =>
      have hlines : Unbracketed (lines.map .html) := unbracketed_map (fun _ => rfl) lines
      rw [Paired, Leaf.events, List.filter_append, List.filter_cons_of_pos rfl,
        hlines.filter_eq_nil]
      exact .pair .html .nil

/-- Whatever the document, its events come in pairs. -/
theorem paired_events (s : Text) : Paired (events s) := by
  rw [events]
  induction leaves .initial s with
  | nil => exact .nil
  | cons leaf rest ih => exact leaf.paired_events.append ih

end Tangle.Markdown
