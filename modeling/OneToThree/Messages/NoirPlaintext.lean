import Mathlib.Data.List.Count
import Mathlib.Data.List.DropRight
import Mathlib.Data.List.Sort
import OneToThree.Folders.ChatFolders
import OneToThree.Lib.Scan

/-!
# The text of a message, as it is shown

`NoirPlaintext` shows the text of a message as a list of nodes: blocks of code, inline code,
spoilers, links, emoji and the text between them. The kinds of spans are found by regular
expressions, each of which searches the text from left to right (`Lib.Scan`); what a chunk of
text holds of them is sorted by its start, and a span that begins within another is left out.

* The nodes, written out with their markup, make up the text (`flatMap_write_nodes`).
* A link is shown without the punctuation at its end, which is shown nowhere else. So the text
  that is shown is the source without its markup if and only if no link ends in punctuation
  (`shows_iff`).

Emoji are found by a regular expression from outside the repository. Texts are lists of
characters; what a code block is marked with as its language is part of the text.
-/

namespace OneToThree.NoirPlaintext

open Scan
open Folders (isSpace)

/-! ## Regular expressions -/

/-- The rest of a text that begins with `start`. -/
def after (start l : List Char) : Option (List Char) :=
  if start.isPrefixOf l then some (l.drop start.length) else none

/-- `\w` -/
def isWord (c : Char) : Bool := c.isAlphanum || c = '_'

def fence : List Char := ['`', '`', '`']

/-- The text before the first fence. -/
def beforeFence : List Char → Option (List Char)
  | [] => none
  | c :: l => if fence.isPrefixOf (c :: l) then some [] else (beforeFence l).map (c :: ·)

structure Block where
  lang : Option (List Char)
  code : List Char
  deriving DecidableEq

/-- A block of code, as it is written. -/
def Block.write (b : Block) : List Char := fence ++ b.lang.getD [] ++ '\n' :: b.code ++ fence

def runCodeBlock (l : List Char) : Option (List Char × Block) := do
  let opened ← after fence l
  let word := opened.takeWhile isWord
  let body ← after ['\n'] (opened.drop word.length)
  let code ← beforeFence body
  let block : Block := ⟨if word = [] then none else some word, code⟩
  return (block.write, block)

def writeInline (code : List Char) : List Char := '`' :: code ++ ['`']

def runInlineCode (l : List Char) : Option (List Char × List Char) := do
  let opened ← after ['`'] l
  let code := opened.takeWhile fun c => c ≠ '`' && c ≠ '\n'
  let _ ← after ['`'] (opened.drop code.length)
  if code = [] then none else return (writeInline code, code)

def writeSpoiler (text : List Char) : List Char := ['|', '|'] ++ text ++ ['|', '|']

def runSpoiler (l : List Char) : Option (List Char × List Char) := do
  let opened ← after ['|', '|'] l
  let text := opened.takeWhile (· ≠ '|')
  let _ ← after ['|', '|'] (opened.drop text.length)
  if text = [] then none else return (writeSpoiler text, text)

/-- The characters of a link, behind its scheme. -/
def isUrlChar (c : Char) : Bool := !isSpace c && !(['<', '>', ')', '"', '\'', ']'].contains c)

def runUrl (l : List Char) : Option (List Char × List Char) := do
  let http ← after ['h', 't', 't', 'p'] l
  let s := if ['s'].isPrefixOf http then ['s'] else []
  let body ← after [':', '/', '/'] (http.drop s.length)
  let path := body.takeWhile isUrlChar
  if path = [] then none else
    let url := ['h', 't', 't', 'p'] ++ s ++ [':', '/', '/'] ++ path
    return (url, url)

theorem eq_append_of_after {start l rest : List Char} (h : after start l = some rest) :
    l = start ++ rest := by
  rw [after] at h
  split at h
  next hpre =>
    cases h
    exact (List.prefix_iff_eq_append.1 (List.isPrefixOf_iff_prefix.1 hpre)).symm
  next => cases h

theorem eq_append_of_beforeFence {l code : List Char} (h : beforeFence l = some code) :
    ∃ rest, l = code ++ fence ++ rest := by
  induction l generalizing code with
  | nil => cases h
  | cons c l ih =>
    rw [beforeFence] at h
    split at h
    next hpre =>
      cases h
      obtain ⟨rest, hrest⟩ := List.isPrefixOf_iff_prefix.1 hpre
      exact ⟨rest, hrest.symm⟩
    next =>
      obtain ⟨code', hcode', rfl⟩ := Option.map_eq_some_iff.1 h
      obtain ⟨rest, rfl⟩ := ih hcode'
      exact ⟨rest, rfl⟩

/-- The text that a run takes and the rest of it. -/
theorem takeWhile_append_drop (p : Char → Bool) (l : List Char) :
    l.takeWhile p ++ l.drop (l.takeWhile p).length = l := by
  induction l with
  | nil => rfl
  | cons c l ih =>
    rw [List.takeWhile_cons]
    split
    · exact congrArg (c :: ·) ih
    · rfl

theorem runCodeBlock_eq_some {l m : List Char} {b : Block} (h : runCodeBlock l = some (m, b)) :
    m = b.write ∧ m <+: l := by
  simp only [runCodeBlock, Option.bind_eq_bind, Option.bind_eq_some_iff, Option.pure_def,
    Option.some.injEq, Prod.mk.injEq] at h
  obtain ⟨opened, hopened, body, hbody, code, hcode, rfl, rfl⟩ := h
  refine ⟨rfl, ?_⟩
  obtain ⟨rest, hrest⟩ := eq_append_of_beforeFence hcode
  refine ⟨rest, ?_⟩
  have hlang : (if opened.takeWhile isWord = [] then none else some (opened.takeWhile isWord)).getD
      [] = opened.takeWhile isWord := by
    split
    next h => rw [h]; rfl
    next => rfl
  conv_rhs => rw [eq_append_of_after hopened, ← takeWhile_append_drop isWord opened,
    eq_append_of_after hbody, hrest]
  simp only [Block.write, hlang, List.append_assoc, List.cons_append, List.nil_append]

theorem runInlineCode_eq_some {l m code : List Char} (h : runInlineCode l = some (m, code)) :
    m = writeInline code ∧ m <+: l := by
  simp only [runInlineCode, Option.bind_eq_bind, Option.bind_eq_some_iff, Option.pure_def] at h
  obtain ⟨opened, hopened, rest, hrest, h⟩ := h
  split at h
  next => cases h
  next =>
    cases h
    refine ⟨rfl, rest, ?_⟩
    rw [eq_append_of_after hopened]
    conv_rhs => rw [← takeWhile_append_drop (fun c => c ≠ '`' && c ≠ '\n') opened,
      eq_append_of_after hrest]
    simp only [writeInline, List.append_assoc, List.cons_append, List.nil_append]

theorem runSpoiler_eq_some {l m text : List Char} (h : runSpoiler l = some (m, text)) :
    m = writeSpoiler text ∧ m <+: l := by
  simp only [runSpoiler, Option.bind_eq_bind, Option.bind_eq_some_iff, Option.pure_def] at h
  obtain ⟨opened, hopened, rest, hrest, h⟩ := h
  split at h
  next => cases h
  next =>
    cases h
    refine ⟨rfl, rest, ?_⟩
    rw [eq_append_of_after hopened]
    conv_rhs => rw [← takeWhile_append_drop (· ≠ '|') opened, eq_append_of_after hrest]
    simp only [writeSpoiler, List.append_assoc, List.cons_append, List.nil_append]

theorem runUrl_eq_some {l m url : List Char} (h : runUrl l = some (m, url)) :
    m = url ∧ m ≠ [] ∧ m <+: l := by
  simp only [runUrl, Option.bind_eq_bind, Option.bind_eq_some_iff, Option.pure_def] at h
  obtain ⟨http, hhttp, body, hbody, h⟩ := h
  split at h
  next => cases h
  next hpath =>
    obtain ⟨rfl, rfl⟩ := Prod.mk.inj (Option.some.inj h)
    refine ⟨rfl, List.append_ne_nil_of_right_ne_nil _ hpath,
      (body.drop (body.takeWhile isUrlChar).length), ?_⟩
    have hs : (if ['s'].isPrefixOf http then ['s'] else []) ++
        http.drop (if ['s'].isPrefixOf http then ['s'] else []).length = http := by
      split
      next hpre => exact List.prefix_iff_eq_append.1 (List.isPrefixOf_iff_prefix.1 hpre)
      next => rfl
    rw [List.append_assoc, takeWhile_append_drop, List.append_assoc, ← eq_append_of_after hbody,
      List.append_assoc, hs]
    exact (eq_append_of_after hhttp).symm

def codeBlockRe : Pattern Char Block where
  run := runCodeBlock
  ne_nil h hm := by
    rw [(runCodeBlock_eq_some h).1] at hm
    cases hm
  isPrefix h := (runCodeBlock_eq_some h).2

def inlineCodeRe : Pattern Char (List Char) where
  run := runInlineCode
  ne_nil h hm := by
    rw [(runInlineCode_eq_some h).1] at hm
    cases hm
  isPrefix h := (runInlineCode_eq_some h).2

def urlRe : Pattern Char (List Char) where
  run := runUrl
  ne_nil h := (runUrl_eq_some h).2.1
  isPrefix h := (runUrl_eq_some h).2.2

def spoilerRe : Pattern Char (List Char) where
  run := runSpoiler
  ne_nil h hm := by
    rw [(runSpoiler_eq_some h).1] at hm
    cases hm
  isPrefix h := (runSpoiler_eq_some h).2

/-! ## Nodes -/

inductive Node
  | text (text : List Char)
  | emoji (emoji : List Char)
  | inlineCode (code : List Char)
  | spoiler (text : List Char)
  | link (url : List Char)
  | codeBlock (block : Block)
  deriving DecidableEq

/-- The punctuation at the end of a link, which is taken not to be part of it. -/
def isTrailing (c : Char) : Bool := ['.', ',', ';', ':', '!', '?', ')'].contains c

/-- The text of `LinkSpan`. -/
def cleanUrl (url : List Char) : List Char := url.rdropWhile isTrailing

/-- The text that a node shows. -/
def Node.visible : Node → List Char
  | .text t | .emoji t | .inlineCode t | .spoiler t => t
  | .link url => cleanUrl url
  | .codeBlock block => block.lang.getD [] ++ block.code

/-- What is found in a chunk of text. -/
inductive Special
  | code (code : List Char)
  | url (url : List Char)
  | spoiler (text : List Char)
  deriving DecidableEq

def Special.node : Special → Node
  | .code t => .inlineCode t
  | .url t => .link t
  | .spoiler t => .spoiler t

/-- A span of one kind, as one of any. -/
def mark (f : List Char → Special) (s : Span (List Char)) : Span Special :=
  ⟨s.start, s.stop, f s.value⟩

/-- The links that do not begin in inline code. -/
def urlMatches (chunk : List Char) : List (Span (List Char)) :=
  (urlRe.spans chunk).filter fun u =>
    !((inlineCodeRe.spans chunk).any fun ic => ic.start ≤ u.start && u.start < ic.stop)

/-- The spans in a chunk, sorted by where they begin. -/
def specials (chunk : List Char) : List (Span Special) :=
  ((inlineCodeRe.spans chunk).map (mark .code) ++ (urlMatches chunk).map (mark .url) ++
    (spoilerRe.spans chunk).map (mark .spoiler)).insertionSort fun a b => a.start ≤ b.start

section
variable (emojiRe : Pattern Char Unit)

def processEmojiText (plain : List Char) : List Node :=
  cut plain (fun t => [.text t]) (fun s => [.emoji (slice plain s.start s.stop)]) 0
    (emojiRe.spans plain)

def processInlineText (chunk : List Char) : List Node :=
  cut chunk (processEmojiText emojiRe) (fun s => [s.value.node]) 0 (keep 0 (specials chunk))

def processedNodes (source : List Char) : List Node :=
  let codeBlocks := codeBlockRe.spans source
  if codeBlocks.length = 0 then processInlineText emojiRe source
  else cut source (processInlineText emojiRe) (fun cb => [.codeBlock cb.value]) 0 codeBlocks

/-- The text that is shown for a message. -/
def shown (source : List Char) : List Char :=
  (processedNodes emojiRe source).flatMap Node.visible

end

/-- The links that are found in a chunk of text, outside of the other spans. -/
def chunkLinks (chunk : List Char) : List (List Char) :=
  (keep 0 (specials chunk)).filterMap fun s =>
    match s.value with
    | .url url => some url
    | _ => none

/-- The links that are found in a source, outside of blocks of code and of the other spans. -/
def links (source : List Char) : List (List Char) :=
  cut source chunkLinks (fun _ => []) 0 (codeBlockRe.spans source)

/-! ## What is to be shown -/

/-- A source, read as markup. -/
inductive Piece
  | text (text : List Char)
  | inlineCode (code : List Char)
  | spoiler (text : List Char)
  | codeBlock (block : Block)

/-- The piece, as it is written. -/
def Piece.write : Piece → List Char
  | .text t => t
  | .inlineCode t => writeInline t
  | .spoiler t => writeSpoiler t
  | .codeBlock block => block.write

/-- The piece without its delimiters. -/
def Piece.bare : Piece → List Char
  | .text t | .inlineCode t | .spoiler t => t
  | .codeBlock block => block.lang.getD [] ++ block.code

/-- The text is the source without the delimiters of its markup: every other character is
    there, once and in its place. -/
def LosesNothing (source text : List Char) : Prop :=
  ∃ pieces : List Piece, pieces.flatMap Piece.write = source ∧ pieces.flatMap Piece.bare = text

/-! ## The nodes make up the text -/

/-- A node, as it is written. -/
def Node.write : Node → List Char
  | .text t | .emoji t => t
  | .inlineCode t => writeInline t
  | .spoiler t => writeSpoiler t
  | .link url => url
  | .codeBlock block => block.write

variable {emojiRe : Pattern Char Unit}

theorem flatMap_write_processEmojiText (plain : List Char) :
    (processEmojiText emojiRe plain).flatMap Node.write = plain := by
  refine flatMap_cut (fun t => ?_) (fun s _ => ?_) (ordered_spans emojiRe plain)
  · exact List.append_nil t
  · exact List.append_nil _

/-- A span of a chunk is the text between its positions. -/
theorem write_special {chunk : List Char} {s : Span Special} (hs : s ∈ specials chunk) :
    s.value.node.write = slice chunk s.start s.stop ∧ s.start ≤ s.stop := by
  rw [specials, List.mem_insertionSort, List.mem_append, List.mem_append] at hs
  rcases hs with (hs | hs) | hs <;> obtain ⟨t, ht, rfl⟩ := List.mem_map.1 hs
  · obtain ⟨hrun, hle⟩ := isMatch_of_mem_spans ht
    exact ⟨(runInlineCode_eq_some hrun).1.symm, hle⟩
  · obtain ⟨hrun, hle⟩ := isMatch_of_mem_spans (List.mem_of_mem_filter ht)
    exact ⟨(runUrl_eq_some hrun).1.symm, hle⟩
  · obtain ⟨hrun, hle⟩ := isMatch_of_mem_spans ht
    exact ⟨(runSpoiler_eq_some hrun).1.symm, hle⟩

theorem flatMap_write_processInlineText (chunk : List Char) :
    (processInlineText emojiRe chunk).flatMap Node.write = chunk := by
  refine flatMap_cut flatMap_write_processEmojiText (fun s hs => ?_)
    (ordered_keep (fun s hs => (write_special hs).2) 0)
  exact (List.append_nil _).trans (write_special (mem_of_mem_keep hs)).1

/-- The nodes, written out, make up the source. -/
theorem flatMap_write_nodes (source : List Char) :
    (processedNodes emojiRe source).flatMap Node.write = source := by
  rw [processedNodes]
  split
  · exact flatMap_write_processInlineText source
  · refine flatMap_cut flatMap_write_processInlineText (fun s hs => ?_)
      (ordered_spans codeBlockRe source)
    exact (List.append_nil _).trans (runCodeBlock_eq_some (isMatch_of_mem_spans hs).1).1.symm

/-! ## The links -/

/-- The link of a node. -/
def Node.url? : Node → Option (List Char)
  | .link url => some url
  | _ => none

theorem url?_processEmojiText (plain : List Char) :
    (processEmojiText emojiRe plain).filterMap Node.url? = [] := by
  rw [processEmojiText, filterMap_cut]
  exact (cut_nil 0 _).trans (List.flatMap_eq_nil_iff.2 fun _ _ => rfl)

theorem url?_processInlineText (chunk : List Char) :
    (processInlineText emojiRe chunk).filterMap Node.url? = chunkLinks chunk := by
  rw [processInlineText, filterMap_cut]
  simp only [url?_processEmojiText]
  rw [cut_nil, chunkLinks, List.filterMap_eq_flatMap_toList]
  refine List.flatMap_congr fun s _ => ?_
  cases s.value <;> rfl

variable (emojiRe) in
/-- The links among the nodes are those that are found in the source. -/
theorem url?_processedNodes (source : List Char) :
    (processedNodes emojiRe source).filterMap Node.url? = links source := by
  rw [processedNodes, links]
  split
  next hnone =>
    rw [List.length_eq_zero_iff.1 hnone, url?_processInlineText, cut]
    split
    next => rfl
    next hempty =>
      rw [List.eq_nil_of_length_eq_zero (Nat.eq_zero_of_not_pos hempty)]
      rfl
  next =>
    rw [filterMap_cut]
    simp only [url?_processInlineText]
    rfl

theorem link_mem_iff {source url : List Char} :
    Node.link url ∈ processedNodes emojiRe source ↔ url ∈ links source := by
  rw [← url?_processedNodes emojiRe, List.mem_filterMap]
  constructor
  · exact fun h => ⟨_, h, rfl⟩
  · rintro ⟨node, hnode, hurl⟩
    cases node with
    | link u =>
      cases hurl
      exact hnode
    | _ => cases hurl

/-- The link ends in punctuation. -/
def endsTrailing (url : List Char) : Bool := url.getLast?.any isTrailing

theorem cleanUrl_eq_self {url : List Char} (h : endsTrailing url = false) : cleanUrl url = url := by
  rw [cleanUrl, List.rdropWhile_eq_self_iff]
  intro hne hlast
  rw [endsTrailing, List.getLast?_eq_getLast_of_ne_nil hne, Option.any_some, hlast] at h
  cases h

/-! ## Counting characters -/

section
variable {α : Type} {c : Char} {f g : α → List Char} {l : List α}

theorem count_flatMap_congr (h : ∀ a ∈ l, (f a).count c = (g a).count c) :
    (l.flatMap f).count c = (l.flatMap g).count c := by
  induction l with
  | nil => rfl
  | cons a l ih =>
    rw [List.flatMap_cons, List.flatMap_cons, List.count_append, List.count_append,
      h a List.mem_cons_self, ih fun b hb => h b (List.mem_cons_of_mem _ hb)]

theorem count_flatMap_le (h : ∀ a ∈ l, (f a).count c ≤ (g a).count c) :
    (l.flatMap f).count c ≤ (l.flatMap g).count c := by
  induction l with
  | nil => exact Nat.le_refl _
  | cons a l ih =>
    rw [List.flatMap_cons, List.flatMap_cons, List.count_append, List.count_append]
    exact Nat.add_le_add (h a List.mem_cons_self) (ih fun b hb => h b (List.mem_cons_of_mem _ hb))

theorem count_flatMap_lt (h : ∀ a ∈ l, (f a).count c ≤ (g a).count c) {a : α} (ha : a ∈ l)
    (hlt : (f a).count c < (g a).count c) : (l.flatMap f).count c < (l.flatMap g).count c := by
  obtain ⟨before, rest, rfl⟩ := List.append_of_mem ha
  have hbefore := count_flatMap_le fun b hb => h b (List.mem_append_left _ hb)
  have hrest := count_flatMap_le fun b hb =>
    h b (List.mem_append_right _ (List.mem_cons_of_mem _ hb))
  simp only [List.flatMap_append, List.flatMap_cons, List.count_append]
  omega

end

/-- A character that delimits nothing. -/
def isPlain (c : Char) : Prop := c ≠ '`' ∧ c ≠ '|' ∧ c ≠ '\n'

theorem isPlain_of_isTrailing {c : Char} (h : isTrailing c = true) : isPlain c := by
  simp only [isTrailing, List.contains_iff_mem, List.mem_cons, List.not_mem_nil, or_false] at h
  rcases h with rfl | rfl | rfl | rfl | rfl | rfl | rfl <;> exact ⟨by decide, by decide, by decide⟩

/-- The delimiters of a block count for no plain character. -/
theorem count_write_block {c : Char} (hc : isPlain c) (b : Block) :
    b.write.count c = (b.lang.getD [] ++ b.code).count c := by
  simp [Block.write, fence, hc.1.symm, hc.2.2.symm]

theorem count_write_piece {c : Char} (hc : isPlain c) (piece : Piece) :
    piece.write.count c = piece.bare.count c := by
  cases piece with
  | text t => rfl
  | inlineCode t => simp [Piece.write, Piece.bare, writeInline, hc.1.symm]
  | spoiler t => simp [Piece.write, Piece.bare, writeSpoiler, hc.2.1.symm]
  | codeBlock b => exact count_write_block hc b

/-- A node shows no character more often than it was written. -/
theorem count_visible_le {c : Char} (hc : isPlain c) (node : Node) :
    node.visible.count c ≤ node.write.count c := by
  cases node with
  | text t | emoji t => exact Nat.le_refl _
  | inlineCode t => exact (count_write_piece hc (.inlineCode t)).ge
  | spoiler t => exact (count_write_piece hc (.spoiler t)).ge
  | link url => exact (List.rdropWhile_prefix isTrailing url).sublist.count_le c
  | codeBlock b => exact (count_write_block hc b).ge

/-- A link that ends in punctuation is shown with less of it. -/
theorem count_cleanUrl_lt {url : List Char} (h : endsTrailing url = true) :
    ∃ c, isTrailing c = true ∧ (cleanUrl url).count c < url.count c := by
  rcases List.eq_nil_or_concat url with rfl | ⟨l, c, rfl⟩
  · cases h
  · rw [List.concat_eq_append] at h ⊢
    rw [endsTrailing, List.getLast?_concat, Option.any_some] at h
    refine ⟨c, h, ?_⟩
    have hle := (List.rdropWhile_prefix isTrailing l).sublist.count_le c
    rw [cleanUrl, List.rdropWhile_concat_pos _ _ _ h, List.count_append, List.count_singleton_self]
    omega

/-! ## What is shown -/

/-- The markup that a node stands for. -/
def Node.piece : Node → Piece
  | .text t | .emoji t | .link t => .text t
  | .inlineCode t => .inlineCode t
  | .spoiler t => .spoiler t
  | .codeBlock block => .codeBlock block

/-- **The text that is shown is the source without its markup** if and only if no link that is
    found in it ends in punctuation. -/
theorem shows_iff (emojiRe : Pattern Char Unit) (source : List Char) :
    LosesNothing source (shown emojiRe source) ↔
      ∀ url ∈ links source, endsTrailing url = false := by
  constructor
  · rintro ⟨pieces, hwrite, hbare⟩ url hurl
    by_contra hends
    obtain ⟨c, hc, hlt⟩ := count_cleanUrl_lt (eq_true_of_ne_false hends)
    have hplain := isPlain_of_isTrailing hc
    have hsame : source.count c = (shown emojiRe source).count c := by
      rw [← hbare]
      conv_lhs => rw [← hwrite]
      exact count_flatMap_congr fun piece _ => count_write_piece hplain piece
    have hless : (shown emojiRe source).count c <
        ((processedNodes emojiRe source).flatMap Node.write).count c :=
      count_flatMap_lt (fun node _ => count_visible_le hplain node) (link_mem_iff.2 hurl) hlt
    rw [flatMap_write_nodes] at hless
    omega
  · intro hlinks
    refine ⟨(processedNodes emojiRe source).map Node.piece, ?_, ?_⟩
    · rw [List.flatMap_map]
      refine Eq.trans (List.flatMap_congr fun node _ => ?_) (flatMap_write_nodes source)
      cases node <;> rfl
    · rw [List.flatMap_map, shown]
      refine List.flatMap_congr fun node hnode => ?_
      cases node with
      | link url => exact (cleanUrl_eq_self (hlinks url (link_mem_iff.1 hnode))).symm
      | _ => rfl

/-- A text without emoji. -/
def noEmoji : Pattern Char Unit where
  run _ := none
  ne_nil h := by cases h
  isPrefix h := by cases h

/-- The full stop behind a link is not shown. -/
theorem loses_full_stop : shown noEmoji "https://a.b.".toList = "https://a.b".toList ∧
    ¬LosesNothing "https://a.b.".toList (shown noEmoji "https://a.b.".toList) := by
  refine ⟨by decide, ?_⟩
  rintro ⟨pieces, hwrite, hbare⟩
  have hsame : ("https://a.b.".toList).count '.' =
      (shown noEmoji "https://a.b.".toList).count '.' := by
    rw [← hbare]
    conv_lhs => rw [← hwrite]
    refine count_flatMap_congr fun piece _ => count_write_piece ?_ piece
    exact ⟨by decide, by decide, by decide⟩
  exact absurd hsame (by decide)

end OneToThree.NoirPlaintext
