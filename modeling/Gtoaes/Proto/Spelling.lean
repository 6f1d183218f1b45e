import Gtoaes.Lib.Spelling
import Gtoaes.Proto.OrderFree

/-!
The ways to write one message: the items in any order, the type word and the keywords in
any letter case, white space around keywords and values, and further commas. `Resolve`
makes the same of all of them.
-/

namespace Gtoaes

open Lib

/-- An item that is written down between commas: keyword and value are more than white
space. -/
structure KeyValPair.Fit (kv : KeyValPair) : Prop where
  keyword : Free (· == ',') kv.keyword ∧ Free (· == '=') kv.keyword ∧ trim kv.keyword ≠ []
  value : Free (· == ',') kv.value ∧ Free (· == '=') kv.value ∧ trim kv.value ≠ []

/-- Keyword and value without the white space at their ends. -/
def KeyValPair.trimmed (kv : KeyValPair) : KeyValPair :=
  { keyword := trim kv.keyword, value := trim kv.value }

/-- The texts between the commas: each is an item, or blank. -/
inductive SpeltItems : List KeyValPair → List Text → Prop
  | nil : SpeltItems [] []
  | blank {items : List KeyValPair} {cells : List Text} {pad : Text} (hpad : Blank pad)
      (h : SpeltItems items cells) : SpeltItems items (pad :: cells)
  | item {items : List KeyValPair} {cells : List Text} {kv : KeyValPair} {k p₁ p₂ p₃ p₄ : Text}
      (hk : iequals k kv.keyword = true) (h₁ : Blank p₁) (h₂ : Blank p₂) (h₃ : Blank p₃)
      (h₄ : Blank p₄) (h : SpeltItems items cells) :
      SpeltItems (kv :: items) ((p₁ ++ k ++ p₂ ++ '=' :: (p₃ ++ kv.value ++ p₄)) :: cells)

/-- A line for the word and the items. -/
inductive Spelt (word : Text) (items : List KeyValPair) : Text → Prop
  | line {lead type gap : Text} {cells : List Text} (hlead : ∀ c ∈ lead, c = ' ')
      (htype : iequals type word = true) (hgap : ∀ c ∈ gap, c = ' ') (hsep : cells ≠ [] → gap ≠ [])
      (hcells : SpeltItems items cells) :
      Spelt word items (lead ++ type ++ gap ++ [','].intercalate cells)

/-! ### One cell -/

theorem free_of_blank {s : Char} (hs : isSpace s = false) {pad : Text} (h : Blank pad) :
    Free (· == s) pad := by
  apply h.free
  intro c hc
  rw [beq_eq_false_iff_ne]
  rintro rfl
  rw [hs] at hc
  cases hc

theorem resolveKv_blank {pad : Text} (h : Blank pad) : resolveKv pad = none := by
  rw [resolveKv, split_of_free (free_of_blank rfl h)]

/-- The item is read as it is meant, but for the case of its keyword. -/
theorem resolveKv_item {kv : KeyValPair} (hkv : kv.Fit) {k p₁ p₂ p₃ p₄ : Text}
    (hk : iequals k kv.keyword = true) (h₁ : Blank p₁) (h₂ : Blank p₂) (h₃ : Blank p₃)
    (h₄ : Blank p₄) :
    resolveKv (p₁ ++ k ++ p₂ ++ '=' :: (p₃ ++ kv.value ++ p₄)) =
      some { keyword := trim k, value := trim kv.value } := by
  have hspace : isSpace '=' = false := rfl
  have hkey : Free (· == '=') (p₁ ++ k ++ p₂) := by
    have hfree : Free (· == '=') k := hkv.keyword.2.1.of_iequals (beq_of_isAlpha rfl) hk
    rw [free_append, free_append]
    exact ⟨⟨free_of_blank hspace h₁, hfree⟩, free_of_blank hspace h₂⟩
  have hvalue : Free (· == '=') (p₃ ++ kv.value ++ p₄) := by
    rw [free_append, free_append]
    exact ⟨⟨free_of_blank hspace h₃, hkv.value.2.1⟩, free_of_blank hspace h₄⟩
  have hopen : NotOpening (· == '=') (p₃ ++ kv.value ++ p₄) := by
    intro c hc
    exact hvalue c (List.mem_of_mem_head? hc)
  have hne : trim k ≠ [] := by
    have hlen := iequals_length (iequals_trim hk)
    intro hnil
    rw [hnil] at hlen
    exact hkv.keyword.2.2 (List.eq_nil_of_length_eq_zero hlen.symm)
  rw [resolveKv, split_append_cons hkey (beq_self_eq_true '=') hopen, split_of_free hvalue]
  simp only [trim_append_blank h₁ h₂, trim_append_blank h₃ h₄]
  rw [if_neg (not_or.mpr ⟨hne, hkv.value.2.2⟩)]

/-- A space in front of an item is not seen. -/
theorem resolveKv_space (t : Text) : resolveKv (' ' :: t) = resolveKv t := by
  have htrim : ∀ t : Text, trim (' ' :: t) = trim t := by
    intro t
    have hblank : Blank [' '] := by simp [Blank, isSpace]
    have hpad := trim_append_blank hblank (List.forall_mem_nil _) t
    rwa [List.append_nil] at hpad
  rw [resolveKv, resolveKv, split, split, squeeze_cons_of_free rfl]
  obtain ⟨p, ps, hpieces, hcons⟩ :=
    @pieces_cons_of_not (· == '=') ' ' rfl (squeeze (· == '=') t)
  rw [hpieces, hcons]
  cases ps with
  | nil => rfl
  | cons q qs =>
      cases qs with
      | nil => simp only [htrim]
      | cons _ _ => rfl

/-! ### A line -/

theorem SpeltItems.filterMap {items : List KeyValPair} {cells : List Text}
    (h : SpeltItems items cells) (hitems : ∀ kv ∈ items, kv.Fit) :
    (cells.filterMap resolveKv).map KeyValPair.folded =
      (items.map KeyValPair.trimmed).map KeyValPair.folded := by
  induction h with
  | nil => rfl
  | blank hpad h ih => rw [List.filterMap_cons, resolveKv_blank hpad, ih hitems]
  | item hk h₁ h₂ h₃ h₄ h ih =>
      obtain ⟨hkv, hrest⟩ := List.forall_mem_cons.mp hitems
      rw [List.filterMap_cons, resolveKv_item hkv hk h₁ h₂ h₃ h₄, List.map_cons, List.map_cons,
        List.map_cons, ih hrest]
      congr 1
      simp only [KeyValPair.folded, KeyValPair.trimmed, iequals_iff_upper.mp (iequals_trim hk)]

theorem SpeltItems.free {items : List KeyValPair} {cells : List Text} (h : SpeltItems items cells)
    (hitems : ∀ kv ∈ items, kv.Fit) : ∀ cell ∈ cells, Free (· == ',') cell := by
  have hspace : isSpace ',' = false := rfl
  induction h with
  | nil => exact nofun
  | blank hpad h ih => exact List.forall_mem_cons.mpr ⟨free_of_blank hspace hpad, ih hitems⟩
  | item hk h₁ h₂ h₃ h₄ h ih =>
      obtain ⟨hkv, hrest⟩ := List.forall_mem_cons.mp hitems
      refine List.forall_mem_cons.mpr ⟨?_, ih hrest⟩
      simp only [free_append, free_cons]
      exact ⟨⟨⟨free_of_blank hspace h₁, hkv.keyword.1.of_iequals (beq_of_isAlpha rfl) hk⟩,
        free_of_blank hspace h₂⟩, rfl, ⟨free_of_blank hspace h₃, hkv.value.1⟩,
        free_of_blank hspace h₄⟩

theorem linePairs_eq (rcvd : Text) : linePairs rcvd = resolveKvs (lineItems rcvd) := by
  rw [linePairs]
  split
  · rename_i hnone
    rw [hnone]
    rfl
  · rfl

/-- What follows the type word, cut at its commas; spaces in front make no difference. -/
theorem resolveKvs_spelt {items : List KeyValPair} {cells : List Text} (h : SpeltItems items cells)
    (hitems : ∀ kv ∈ items, kv.Fit) :
    resolveKvs (([','].intercalate cells).dropWhile (· == ' ')) =
      (cells.filterMap resolveKv).foldl sortKv ([], {}) := by
  have hspace : ∀ c : Char, (c == ' ') = true → (c == ',') = false := by
    intro c hc
    rw [beq_iff_eq] at hc
    subst hc
    rfl
  have hunseen : ∀ (c : Char) (t : Text), (c == ' ') = true → resolveKv (c :: t) = resolveKv t := by
    intro c t hc
    rw [beq_iff_eq] at hc
    subst hc
    exact resolveKv_space t
  rw [resolveKvs, filterMap_split rfl, filterMap_pieces_dropWhile hspace hunseen]
  by_cases hne : cells = []
  · subst hne
    rfl
  · have hpieces := @pieces_intercalate (· == ',') ',' rfl cells (h.free hitems) hne
    rw [hpieces]

theorem dropWhile_spaces {pad : Text} (h : ∀ c ∈ pad, c = ' ') (t : Text) :
    (pad ++ t).dropWhile (· == ' ') = t.dropWhile (· == ' ') :=
  List.dropWhile_append_of_pos fun c hc => beq_iff_eq.mpr (h c hc)

theorem Spelt.linePairs {word : Text} {items : List KeyValPair} {line : Text}
    (h : Spelt word items line) (hword : word ≠ []) (hfree : Free (· == ' ') word)
    (hitems : ∀ kv ∈ items, kv.Fit) :
    iequals (lineType line) word = true ∧ ∃ kvs : List KeyValPair,
      Gtoaes.linePairs line = kvs.foldl sortKv ([], {}) ∧
        kvs.map KeyValPair.folded = (items.map KeyValPair.trimmed).map KeyValPair.folded := by
  cases h with
  | @line lead type gap cells hlead htype hgap hsep hcells =>
      have hspaces : Free (· == ' ') type := hfree.of_iequals (beq_of_isAlpha rfl) htype
      have hne : type ≠ [] := by
        have hlen := iequals_length htype
        rintro rfl
        exact hword (List.eq_nil_of_length_eq_zero hlen.symm)
      obtain ⟨rest, hrest⟩ : ∃ rest, gap ++ [','].intercalate cells = rest := ⟨_, rfl⟩
      have hstart : (lead ++ type ++ gap ++ [','].intercalate cells).dropWhile (· == ' ') =
          type ++ rest := by
        rw [List.append_assoc, List.append_assoc, dropWhile_spaces hlead, hrest]
        exact dropWhile_type hspaces hne rest
      -- the word ends at the gap, or with the line
      have hstop : ∀ c, rest.head? = some c → (c != ' ') = false := by
        intro c hc
        rw [← hrest] at hc
        cases gap with
        | nil =>
            have hnone : cells = [] := by
              by_contra hne
              exact hsep hne rfl
            rw [hnone] at hc
            cases hc
        | cons d gap =>
            obtain rfl := Option.some.inj hc
            rw [hgap d List.mem_cons_self]
            rfl
      have hpass : ∀ c ∈ type, (c != ' ') = true := fun c hc => by simpa using hspaces c hc
      refine ⟨?_, cells.filterMap resolveKv, ?_, hcells.filterMap hitems⟩
      · rw [lineType, hstart, takeWhile_append_stop hpass hstop]
        exact htype
      · rw [linePairs_eq, lineItems, hstart, dropWhile_append_stop hpass hstop, ← hrest,
          dropWhile_spaces hgap]
        exact resolveKvs_spelt hcells hitems

/-- The outcome of a line does not depend on the order of its items, on the letter case of
its word and keywords, on white space, or on further commas. -/
theorem resolve_spelt {word : Text} (hword : word ≠ []) (hfree : Free (· == ' ') word)
    {items items' : List KeyValPair} (hitems : ∀ kv ∈ items, kv.Fit)
    (hdistinct : Distinct (items.map KeyValPair.trimmed)) (hperm : items.Perm items')
    {line line' : Text} (h : Spelt word items line) (h' : Spelt word items' line') :
    SameOutcome (resolve line) (resolve line') := by
  have hitems' : ∀ kv ∈ items', kv.Fit := fun kv hkv => hitems kv (hperm.mem_iff.mpr hkv)
  obtain ⟨htype, kvs, hpairs, hkvs⟩ := h.linePairs hword hfree hitems
  obtain ⟨htype', kvs', hpairs', hkvs'⟩ := h'.linePairs hword hfree hitems'
  have hsame : Reordered kvs kvs' := by
    rw [Reordered, hkvs, hkvs']
    exact (hperm.map _).map _
  have honce : Distinct kvs := by
    have hkeys := congrArg (List.map KeyValPair.keyword) hkvs
    simp only [List.map_map, Function.comp_def, KeyValPair.folded] at hkeys
    rw [Distinct, hkeys]
    simpa only [Distinct, List.map_map, Function.comp_def] using hdistinct
  refine resolve_reordered ?_ hpairs hpairs' hsame honce
  rw [iequals_comm] at htype'
  exact iequals_trans htype htype'

theorem resolve_spelt_abort :
    SameOutcome (resolve "abort gid=001,uid=002".toList)
      (resolve " ABORT ,uid = 002,, GID=001".toList) := by
  obtain ⟨gid, hgid⟩ : ∃ gid : KeyValPair, gid = ⟨"gid".toList, "001".toList⟩ := ⟨_, rfl⟩
  obtain ⟨uid, huid⟩ : ∃ uid : KeyValPair, uid = ⟨"uid".toList, "002".toList⟩ := ⟨_, rfl⟩
  have hfit : ∀ kv ∈ [gid, uid], kv.Fit := by
    intro kv hkv
    rw [hgid, huid, List.mem_cons, List.mem_singleton] at hkv
    rcases hkv with rfl | rfl <;> exact ⟨by decide, by decide⟩
  have hplain : Spelt "abort".toList [gid, uid] "abort gid=001,uid=002".toList := by
    have hcells := @SpeltItems.item _ _ gid "gid".toList [] [] [] [] (by rw [hgid]; rfl)
      (by decide) (by decide) (by decide) (by decide)
      (@SpeltItems.item _ _ uid "uid".toList [] [] [] [] (by rw [huid]; rfl)
        (by decide) (by decide) (by decide) (by decide) .nil)
    rw [hgid, huid] at hcells ⊢
    exact @Spelt.line _ _ [] "abort".toList [' '] _ nofun rfl (by simp) (by simp) hcells
  have hloose : Spelt "abort".toList [uid, gid] " ABORT ,uid = 002,, GID=001".toList := by
    have hcells := @SpeltItems.blank _ _ [] (by decide)
      (@SpeltItems.item _ _ uid "uid".toList [] [' '] [' '] [] (by rw [huid]; rfl)
        (by decide) (by decide) (by decide) (by decide)
        (@SpeltItems.blank _ _ [] (by decide)
          (@SpeltItems.item _ _ gid "GID".toList [' '] [] [] [] (by rw [hgid]; decide)
            (by decide) (by decide) (by decide) (by decide) .nil)))
    rw [hgid, huid] at hcells ⊢
    exact @Spelt.line _ _ [' '] "ABORT".toList [' '] _ (by simp) (by decide) (by simp) (by simp) hcells
  have hdistinct : Distinct ([gid, uid].map KeyValPair.trimmed) := by
    rw [hgid, huid]
    decide
  exact resolve_spelt (by decide) (by decide) hfit hdistinct (List.Perm.swap _ _ []) hplain hloose

end Gtoaes
