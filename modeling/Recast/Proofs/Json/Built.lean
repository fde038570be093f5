import Recast.Proofs.Json.Lexed

/-!
# Built — documents built from tokens

A text that *spells* a document has the tokens of the document.  The document that is built from them
is the one that is spelled, clipped where it is nested deeper than a reader follows.  Conversely every
text that is read spells a document.

Main statement: `Json.Written.ofText?_eq_some_iff`.
-/

namespace Recast
namespace Json
namespace Written

/-! ## Depths -/

mutual
/-- The number of arrays and objects inside each other in a document.  One that may only be passed
over is too deep everywhere. -/
def depth : Written → Nat
  | .array items => itemsDepth items + 1
  | .object members => membersDepth members + 1
  | .tooDeep => maxDepth + 1
  | _ => 0

def itemsDepth : List Written → Nat
  | [] => 0
  | w :: rest => max (depth w) (itemsDepth rest)

def membersDepth : List (List Piece × Written) → Nat
  | [] => 0
  | m :: rest => max (memberDepth m) (membersDepth rest)

def memberDepth : List Piece × Written → Nat
  | (_, w) => depth w
end

mutual
def Entire : Written → Prop
  | .array items => EntireItems items
  | .object members => EntireMembers members
  | .tooDeep => False
  | _ => True

def EntireItems : List Written → Prop
  | [] => True
  | w :: rest => Entire w ∧ EntireItems rest

def EntireMembers : List (List Piece × Written) → Prop
  | [] => True
  | m :: rest => EntireMember m ∧ EntireMembers rest

def EntireMember : List Piece × Written → Prop
  | (_, w) => Entire w
end

mutual
/-- A document without the arrays and objects that have more than `n` of them around and in them. -/
def clip (n : Nat) : Written → Written
  | .array items =>
      match n with
      | 0 => .tooDeep
      | n + 1 => .array (clipItems n items)
  | .object members =>
      match n with
      | 0 => .tooDeep
      | n + 1 => .object (clipMembers n members)
  | w => w

def clipItems (n : Nat) : List Written → List Written
  | [] => []
  | w :: rest => clip n w :: clipItems n rest

def clipMembers (n : Nat) : List (List Piece × Written) → List (List Piece × Written)
  | [] => []
  | m :: rest => clipMember n m :: clipMembers n rest

def clipMember (n : Nat) : List Piece × Written → List Piece × Written
  | (k, w) => (k, clip n w)
end

/-- A text spells a document. -/
structure Spelled (w : Written) (s : String) : Prop where
  entire : w.Entire
  tokens : tokens? s.toList = some w.tokens

/-- Items are clipped one by one. -/
theorem clipItems_eq (n : Nat) (items : List Written) : clipItems n items = items.map (clip n) := by
  induction items with
  | nil => rfl
  | cons w rest ih => rw [clipItems, List.map_cons, ih]

/-- The values of members are clipped one by one. -/
theorem clipMembers_eq (n : Nat) (members : List (List Piece × Written)) :
    clipMembers n members = members.map fun m => (m.1, clip n m.2) := by
  induction members with
  | nil => rfl
  | cons m rest ih =>
      obtain ⟨k, w⟩ := m
      rw [clipMembers, clipMember, List.map_cons, ih]

mutual
/-- What is not too deep is not clipped. -/
theorem clip_of_depth (n : Nat) (w : Written) (h : w.depth ≤ n) : w.clip n = w := by
  match w, n with
  | .array items, n + 1 =>
      rw [depth] at h
      rw [clip, clipItems_of_depth n items (by omega)]
  | .object members, n + 1 =>
      rw [depth] at h
      rw [clip, clipMembers_of_depth n members (by omega)]
  | .null, _ | .bool _, _ | .number _, _ | .text _, _ | .tooDeep, _ => rfl

/-- Items that are not too deep are not clipped. -/
theorem clipItems_of_depth (n : Nat) (items : List Written) (h : itemsDepth items ≤ n) :
    clipItems n items = items := by
  match items with
  | [] => rfl
  | w :: rest =>
      rw [itemsDepth] at h
      rw [clipItems, clip_of_depth n w (by omega), clipItems_of_depth n rest (by omega)]

/-- Members that are not too deep are not clipped. -/
theorem clipMembers_of_depth (n : Nat) (members : List (List Piece × Written))
    (h : membersDepth members ≤ n) : clipMembers n members = members := by
  match members with
  | [] => rfl
  | m :: rest =>
      rw [membersDepth] at h
      rw [clipMembers, clipMember_of_depth n m (by omega),
        clipMembers_of_depth n rest (by omega)]

theorem clipMember_of_depth (n : Nat) (m : List Piece × Written) (h : memberDepth m ≤ n) :
    clipMember n m = m := by
  match m with
  | (k, w) => rw [clipMember, clip_of_depth n w h]
end

mutual
/-- What is not too deep to be used has not been passed over. -/
theorem entire_of_depth (w : Written) (h : w.depth ≤ maxDepth) : w.Entire := by
  match w with
  | .array items =>
      rw [depth] at h
      exact entireItems_of_depth items (by omega)
  | .object members =>
      rw [depth] at h
      exact entireMembers_of_depth members (by omega)
  | .tooDeep =>
      rw [depth] at h
      omega
  | .null | .bool _ | .number _ | .text _ => trivial

/-- Nothing is passed over in items that are not too deep. -/
theorem entireItems_of_depth (items : List Written) (h : itemsDepth items ≤ maxDepth) :
    EntireItems items := by
  match items with
  | [] => trivial
  | w :: rest =>
      rw [itemsDepth] at h
      exact ⟨entire_of_depth w (by omega), entireItems_of_depth rest (by omega)⟩

theorem entireMembers_of_depth (members : List (List Piece × Written))
    (h : membersDepth members ≤ maxDepth) : EntireMembers members := by
  match members with
  | [] => trivial
  | m :: rest =>
      rw [membersDepth] at h
      exact ⟨entireMember_of_depth m (by omega), entireMembers_of_depth rest (by omega)⟩

theorem entireMember_of_depth (m : List Piece × Written) (h : memberDepth m ≤ maxDepth) :
    EntireMember m := by
  match m with
  | (_, w) => exact entire_of_depth w h
end

end Written

/-! ## From tokens to documents -/

/-- The number of arrays and objects that may be opened inside the frames. -/
def room (stack : List Frame) : Nat :=
  maxDepth - stack.length

/-- What has been built inside the frames ends clipped. -/
theorem close_clipped (stack : List Frame) {w : Written} {v : Nat → Written}
    (hzero : w.clip 0 = .tooDeep) (hsucc : ∀ n, w.clip (n + 1) = v n) :
    Builder.close stack (v (room stack - 1)) = .after stack (w.clip (room stack)) := by
  have hroom : stack.length < maxDepth ↔ room stack ≠ 0 := by
    rw [room]
    omega
  cases hr : room stack with
  | zero => rw [Builder.close, if_neg (fun h => hroom.1 h hr), hzero]
  | succ n => rw [Builder.close, if_pos (hroom.2 (by omega)), hsucc, Nat.add_sub_cancel]

/-- An array ends clipped if its items are. -/
theorem close_array (stack : List Frame) (items : List Written) :
    Builder.close stack (.array (items.map (Written.clip (room stack - 1)))) =
      .after stack (Written.clip (room stack) (.array items)) :=
  close_clipped stack (w := .array items) (v := fun n => .array (items.map (Written.clip n))) rfl
    fun n => by rw [Written.clip, Written.clipItems_eq]

/-- An object ends clipped if its values are. -/
theorem close_object (stack : List Frame) (members : List (List Piece × Written)) :
    Builder.close stack
        (.object (members.map fun m => (m.1, Written.clip (room stack - 1) m.2))) =
      .after stack (Written.clip (room stack) (.object members)) :=
  close_clipped stack (w := .object members)
    (v := fun n => .object (members.map fun m => (m.1, Written.clip n m.2))) rfl
    fun n => by rw [Written.clip, Written.clipMembers_eq]

/-- Inside one more frame there is room for one less. -/
theorem room_cons (f : Frame) (stack : List Frame) : room (f :: stack) = room stack - 1 := by
  simp only [room, List.length_cons]
  omega

-- along the tokens of a document; what is done of an array or an object has been clipped before
mutual
/-- The tokens of a document build it, clipped to the room there is. -/
theorem foldlM_tokens (w : Written) (h : w.Entire) (stack : List Frame) (closable : Bool) :
    w.tokens.foldlM Builder.step? (.value stack closable) =
      some (.after stack (w.clip (room stack))) := by
  match w with
  | .array items =>
      have hitems := foldlM_itemsTokens items h [] stack true (.inr rfl)
      simpa [Written.tokens, Builder.step?, close_array] using hitems
  | .object members =>
      have hmembers := foldlM_membersTokens members h [] stack true (.inr rfl)
      simpa [Written.tokens, Builder.step?, close_object] using hmembers
  | .tooDeep => exact h.elim
  | .null | .bool _ | .number _ | .text _ => rfl

/-- The tokens of items build them up to the end of their array. -/
theorem foldlM_itemsTokens (items : List Written) (h : Written.EntireItems items)
    (done : List Written) (stack : List Frame) (closable : Bool)
    (hends : items ≠ [] ∨ closable = true) :
    (Written.itemsTokens items ++ [Token.closeArray]).foldlM Builder.step?
        (.value (.array done :: stack) closable) =
      some (Builder.close stack
        (.array (done.reverse ++ items.map (Written.clip (room stack - 1))))) := by
  match items with
  | [] =>
      -- an empty list may close at once
      obtain rfl := hends.resolve_left (fun h => h rfl)
      simp [Written.itemsTokens, Builder.step?]
  | [w] =>
      have hw := foldlM_tokens w h.1 (.array done :: stack) closable
      rw [Written.itemsTokens, List.foldlM_append, hw]
      simp [Builder.step?, room_cons]
  | w :: w' :: rest =>
      -- the first item is complete at the comma, and the others follow
      have hw := foldlM_tokens w h.1 (.array done :: stack) closable
      have hrest := foldlM_itemsTokens (w' :: rest) h.2 (w.clip (room stack - 1) :: done) stack false
        (.inl (by simp))
      have htokens : Written.itemsTokens (w :: w' :: rest) =
          w.tokens ++ .comma :: Written.itemsTokens (w' :: rest) := rfl
      rw [htokens, List.append_assoc, List.foldlM_append, hw]
      simpa [Builder.step?, room_cons] using hrest

/-- The tokens of members build them up to the end of their object. -/
theorem foldlM_membersTokens (members : List (List Piece × Written))
    (h : Written.EntireMembers members) (done : List (List Piece × Written)) (stack : List Frame)
    (closable : Bool) (hends : members ≠ [] ∨ closable = true) :
    (Written.membersTokens members ++ [Token.closeObject]).foldlM Builder.step?
        (.key stack done closable) =
      some (Builder.close stack (.object (done.reverse ++
        members.map fun m => (m.1, Written.clip (room stack - 1) m.2)))) := by
  match members with
  | [] =>
      -- an object without members may close at once
      obtain rfl := hends.resolve_left (fun h => h rfl)
      simp [Written.membersTokens, Builder.step?]
  | [m] =>
      have hm := foldlM_memberTokens m h.1 done stack closable
      rw [Written.membersTokens, List.foldlM_append, hm]
      simp [Builder.step?]
  | m :: m' :: rest =>
      -- the first member is complete at the comma, and the others follow
      have hm := foldlM_memberTokens m h.1 done stack closable
      have hrest := foldlM_membersTokens (m' :: rest) h.2
        ((m.1, m.2.clip (room stack - 1)) :: done) stack false (.inl (by simp))
      have htokens : Written.membersTokens (m :: m' :: rest) =
          Written.memberTokens m ++ .comma :: Written.membersTokens (m' :: rest) := rfl
      rw [htokens, List.append_assoc, List.foldlM_append, hm]
      simpa [Builder.step?] using hrest

theorem foldlM_memberTokens (m : List Piece × Written) (h : Written.EntireMember m)
    (done : List (List Piece × Written)) (stack : List Frame) (closable : Bool) :
    (Written.memberTokens m).foldlM Builder.step? (.key stack done closable) =
      some (.after (.object done m.1 :: stack) (m.2.clip (room stack - 1))) := by
  match m with
  | (k, w) =>
      have hw := foldlM_tokens w h (.object done k :: stack) false
      rw [Written.memberTokens]
      simpa [Builder.step?, room_cons] using hw
end

/-- The tokens of a document are read as the document, as far as it is not too deep. -/
theorem Written.ofTokens?_tokens {w : Written} (h : w.Entire) :
    ofTokens? w.tokens = some (w.clip maxDepth) := by
  rw [ofTokens?, foldlM_tokens w h [] false]
  rfl

/-- A text that spells a document is read as the document, as far as it is not too deep. -/
theorem Written.ofText?_spelled {w : Written} {s : String} (h : w.Spelled s) :
    ofText? s = some (w.clip maxDepth) := by
  rw [ofText?, h.tokens, Option.bind_some, ofTokens?_tokens h.entire]

/-! ## From documents to tokens -/

theorem Written.itemsTokens_concat (items : List Written) (w : Written) :
    itemsTokens (items ++ [w]) = (items.flatMap fun v => v.tokens ++ [.comma]) ++ w.tokens := by
  induction items with
  | nil => rfl
  | cons v rest ih =>
      have htokens : itemsTokens (v :: (rest ++ [w])) =
          v.tokens ++ .comma :: itemsTokens (rest ++ [w]) := by
        cases rest <;> rfl
      rw [List.cons_append, htokens, ih]
      simp

theorem Written.membersTokens_concat (members : List (List Piece × Written))
    (m : List Piece × Written) : membersTokens (members ++ [m]) =
      (members.flatMap fun m => memberTokens m ++ [.comma]) ++ memberTokens m := by
  induction members with
  | nil => rfl
  | cons m' rest ih =>
      have htokens : membersTokens (m' :: (rest ++ [m])) =
          memberTokens m' ++ .comma :: membersTokens (rest ++ [m]) := by
        cases rest <;> rfl
      rw [List.cons_append, htokens, ih]
      simp

/-- Nothing is passed over in items if nothing is in any of them. -/
theorem Written.entireItems_iff {items : List Written} :
    EntireItems items ↔ ∀ w ∈ items, w.Entire := by
  induction items with
  | nil => simp [EntireItems]
  | cons w rest ih => simp [EntireItems, ih]

theorem Written.entireMembers_iff {members : List (List Piece × Written)} :
    EntireMembers members ↔ ∀ m ∈ members, m.2.Entire := by
  induction members with
  | nil => simp [EntireMembers]
  | cons m rest ih =>
      obtain ⟨k, w⟩ := m
      rw [EntireMembers, ih, List.forall_mem_cons]
      rfl

/-- An array or object that has not ended, without what is nested too deep in it. -/
inductive Opened : List Token → List Frame → Prop where
  | nil : Opened [] []
  | array {ts : List Token} {stack : List Frame} (h : Opened ts stack) {done : List Written}
      (hdone : ∀ w ∈ done, w.Entire) :
      Opened (ts ++ .openArray :: done.flatMap fun w => w.tokens ++ [.comma])
        (.array (done.map (Written.clip (room stack - 1))).reverse :: stack)
  | object {ts : List Token} {stack : List Frame} (h : Opened ts stack)
      {done : List (List Piece × Written)} (hdone : ∀ m ∈ done, m.2.Entire) (key : List Piece) :
      Opened (ts ++ .openObject :: (done.flatMap fun m => Written.memberTokens m ++ [.comma]) ++
          [.text key, .colon])
        (.object (done.map fun m => (m.1, m.2.clip (room stack - 1))).reverse key :: stack)

/-- The tokens that have been read are those of the document that is being built, before anything
in it is clipped. -/
inductive Building : List Token → Builder → Prop where
  | value {ts : List Token} {stack : List Frame} (h : Opened ts stack) :
      Building ts (.value stack false)
  | items {ts : List Token} {stack : List Frame} (h : Opened ts stack) :
      Building (ts ++ [.openArray]) (.value (.array [] :: stack) true)
  | key {ts : List Token} {stack : List Frame} (h : Opened ts stack)
      {done : List (List Piece × Written)} (hdone : ∀ m ∈ done, m.2.Entire) {closable : Bool}
      (hclosable : closable = true → done = []) :
      Building (ts ++ .openObject :: done.flatMap fun m => Written.memberTokens m ++ [.comma])
        (.key stack (done.map fun m => (m.1, m.2.clip (room stack - 1))).reverse closable)
  | colon {ts : List Token} {stack : List Frame} (h : Opened ts stack)
      {done : List (List Piece × Written)} (hdone : ∀ m ∈ done, m.2.Entire) (key : List Piece) :
      Building (ts ++ .openObject :: (done.flatMap fun m => Written.memberTokens m ++ [.comma]) ++
          [.text key])
        (.colon stack (done.map fun m => (m.1, m.2.clip (room stack - 1))).reverse key)
  | after {ts : List Token} {stack : List Frame} (h : Opened ts stack) {w : Written}
      (hw : w.Entire) : Building (ts ++ w.tokens) (.after stack (w.clip (room stack)))

theorem Opened.items {ts : List Token} {stack : List Frame} (h : Opened ts stack) :
    Opened (ts ++ [.openArray]) (.array [] :: stack) :=
  h.array (List.forall_mem_nil _)

/-- A value that consists of one token goes wherever a value can. -/
theorem Opened.leaf {ts : List Token} {stack : List Frame} (h : Opened ts stack) {w : Written}
    {t : Token} (hw : w.Entire) (htokens : w.tokens = [t]) (hclip : w.clip (room stack) = w) :
    Building (ts ++ [t]) (.after stack w) := by
  have hafter := Building.after h hw
  rwa [htokens, hclip] at hafter

/-- A token that does not end an array starts a value. -/
theorem Opened.start {ts : List Token} {stack : List Frame} (h : Opened ts stack) {closable : Bool}
    {t : Token} {b : Builder} (hstep : (Builder.value stack closable).step? t = some b)
    (ht : t ≠ .closeArray) : Building (ts ++ [t]) b := by
  -- a value is complete with its token, or it is opened by it
  cases t with
  | null =>
      cases hstep
      exact h.leaf trivial rfl rfl
  | bool b =>
      cases hstep
      exact h.leaf (w := .bool b) trivial rfl rfl
  | number x =>
      cases hstep
      exact h.leaf (w := .number x) trivial rfl rfl
  | text ps =>
      cases hstep
      exact h.leaf (w := .text ps) trivial rfl rfl
  | openArray =>
      cases hstep
      exact .items h
  | openObject =>
      cases hstep
      exact Building.key h (List.forall_mem_nil _) fun _ => rfl
  | closeArray => exact absurd rfl ht
  | _ => simp [Builder.step?] at hstep

/-- The tokens that have been read follow what is being built with every token. -/
theorem Building.step {ts : List Token} {b b' : Builder} {t : Token} (h : Building ts b)
    (hstep : b.step? t = some b') : Building (ts ++ [t]) b' := by
  cases h with
  | value h =>
      refine h.start hstep ?_
      rintro rfl
      simp [Builder.step?] at hstep
  | @items ts stack h =>
      -- an array without items ends, or its first item starts
      by_cases ht : t = .closeArray
      · subst ht
        have hend := Building.after h (w := .array []) trivial
        rw [← close_array] at hend
        cases hstep
        simpa [Written.tokens, Written.itemsTokens] using hend
      · exact h.items.start hstep ht
  | @key ts stack h done hdone closable hclosable =>
      cases t with
      | text ps =>
          simp only [Builder.step?, Option.some.injEq] at hstep
          subst hstep
          exact .colon h hdone ps
      | closeObject =>
          cases closable with
          | false => simp [Builder.step?] at hstep
          | true =>
              obtain rfl := hclosable rfl
              have hend := Building.after h (w := .object []) trivial
              rw [← close_object] at hend
              cases hstep
              simpa [Written.tokens, Written.membersTokens] using hend
      | _ => simp [Builder.step?] at hstep
  | colon h hdone key =>
      cases t with
      | colon =>
          cases hstep
          simpa using Building.value (h.object hdone key)
      | _ => simp [Builder.step?] at hstep
  | @after ts stack h w hw =>
      -- the value that has ended is clipped by now; the token puts it into the innermost frame
      cases h with
      | nil => simp [Builder.step?] at hstep
      | @array ts stack h done hdone =>
          have hall : ∀ v ∈ done ++ [w], v.Entire :=
            List.forall_mem_append.2 ⟨hdone, List.forall_mem_singleton.2 hw⟩
          cases t with
          | comma =>
              have hopen := Building.value (h.array hall)
              simp only [Builder.step?, Option.some.injEq, room_cons] at hstep
              subst hstep
              simpa using hopen
          | closeArray =>
              have hend := Building.after h (w := .array (done ++ [w])) (Written.entireItems_iff.2 hall)
              rw [← close_array] at hend
              simp only [Builder.step?, Option.some.injEq, room_cons] at hstep
              subst hstep
              simpa [Written.tokens, Written.itemsTokens_concat] using hend
          | _ => simp [Builder.step?] at hstep
      | @object ts stack h done hdone key =>
          have hall : ∀ m ∈ done ++ [(key, w)], m.2.Entire :=
            List.forall_mem_append.2 ⟨hdone, List.forall_mem_singleton.2 hw⟩
          cases t with
          | comma =>
              have hopened : false = true → done ++ [(key, w)] = [] := nofun
              have hopen := Building.key h hall hopened
              simp only [Builder.step?, Option.some.injEq, room_cons] at hstep
              subst hstep
              simpa [Written.memberTokens] using hopen
          | closeObject =>
              have hend := Building.after h (w := .object (done ++ [(key, w)]))
                (Written.entireMembers_iff.2 hall)
              rw [← close_object] at hend
              simp only [Builder.step?, Option.some.injEq, room_cons] at hstep
              subst hstep
              simpa [Written.tokens, Written.membersTokens_concat, Written.memberTokens] using hend
          | _ => simp [Builder.step?] at hstep

/-- A document keeps being built as its tokens are read. -/
theorem Building.foldlM {ts ts' : List Token} {b b' : Builder} (h : Building ts b)
    (hsteps : ts'.foldlM Builder.step? b = some b') : Building (ts ++ ts') b' := by
  induction ts' generalizing ts b with
  | nil =>
      cases hsteps
      simpa using h
  | cons t rest ih =>
      rw [List.foldlM_cons] at hsteps
      obtain ⟨c, hc, hrest⟩ := Option.bind_eq_some_iff.1 hsteps
      simpa using ih (h.step hc) hrest

/-- The texts that are read are those that spell a document, and they are read as the document, as
far as it is not too deep. -/
theorem Written.ofText?_eq_some_iff {s : String} {v : Written} :
    ofText? s = some v ↔ ∃ w : Written, w.Spelled s ∧ v = w.clip maxDepth := by
  constructor
  · intro h
    obtain ⟨ts, hts, h⟩ := Option.bind_eq_some_iff.1 h
    obtain ⟨b, hb, hfinish⟩ := Option.bind_eq_some_iff.1 h
    -- the builder can only finish where a value is complete and nothing is open
    have hbuilding := (Building.value .nil).foldlM hb
    rw [List.nil_append] at hbuilding
    cases hbuilding with
    | @after ts' stack hopen w hw =>
        cases hopen with
        | nil =>
            cases hfinish
            exact ⟨w, ⟨hw, by rw [hts]; rfl⟩, rfl⟩
        | _ => cases hfinish
    | _ => cases hfinish
  · rintro ⟨w, hw, rfl⟩
    exact ofText?_spelled hw

end Json
end Recast
