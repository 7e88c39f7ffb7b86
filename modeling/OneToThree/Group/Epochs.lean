import OneToThree.Group.Network

/-!
# One key per epoch

What a rotation mints is settled by the compare-and-swap on the epoch: at most one
key, under one creator, for every epoch (`World.minted`). A wrap is *good* if it is of
the key minted for the epoch it is stamped with.

The clients and the routes are verified one by one, against a contract: a client
uploads good wraps only, or wraps of its own new key along with the claim of their
epoch, and may assume that the rosters it reads hold good wraps and that a claim which
succeeds mints its key. `inv_step` puts them together: whatever is interleaved, all the
wraps stored are good.
-/

namespace OneToThree.Group

/-- What is minted for an epoch: a key, wrapped by its creator. -/
structure Mint where
  key : GroupKey
  creator : Jwk

/-- What is settled of the epochs. It only grows. -/
structure World where
  epoch : ℕ
  minted : ℕ → Option Mint
  /-- The epoch that a generated key is to be minted for. -/
  target : GroupKey → Option ℕ

instance : Preorder World where
  le w w' := w.epoch ≤ w'.epoch ∧ (∀ e m, w.minted e = some m → w'.minted e = some m) ∧
    ∀ k e, w.target k = some e → w'.target k = some e
  le_refl _ := ⟨Nat.le_refl _, fun _ _ h => h, fun _ _ h => h⟩
  le_trans _ _ _ h h' := ⟨Nat.le_trans h.1 h'.1, fun e m hm => h'.2.1 e m (h.2.1 e m hm),
    fun k e hk => h'.2.2 k e (h.2.2 k e hk)⟩

namespace SectorKeyAuthWrap

def mint (wrap : SectorKeyAuthWrap) : Mint := ⟨wrap.key, wrap.creatorEcdhPublicKeyJwk⟩

/-- The wrap is of what was minted for its epoch. -/
def Good (wrap : SectorKeyAuthWrap) (w : World) : Prop := w.minted wrap.stamp = some wrap.mint

theorem Good.mono {wrap : SectorKeyAuthWrap} {w w' : World} (hle : w ≤ w') (h : wrap.Good w) :
    wrap.Good w' := hle.2.1 _ _ h

end SectorKeyAuthWrap

section
variable (ecdh : UserId → Option Jwk) (chatId : ChatId) (N : ℕ)

/-- The wrap opens for the user, in this chat. -/
def SealedForUser (wrap : SectorKeyAuthWrap) (userId : UserId) : Prop :=
  ∃ jwk, ecdh userId = some jwk ∧ wrap.SealedFor jwk ⟨chatId, userId⟩

/-- The stored row of a user holds nothing, or a good wrap for this user. -/
def GoodRow (w : World) (userId : UserId) (stored : Option SectorKeyAuthWrap) : Prop :=
  ∀ wrap ∈ stored, wrap.Good w ∧ SealedForUser ecdh chatId wrap userId

theorem GoodRow.mono {w w' : World} {userId : UserId} {stored : Option SectorKeyAuthWrap}
    (hle : w ≤ w') (h : GoodRow ecdh chatId w userId stored) :
    GoodRow ecdh chatId w' userId stored :=
  fun wrap hwrap => ⟨(h wrap hwrap).1.mono hle, (h wrap hwrap).2⟩

/-- The roster holds good rows, and the users' own keys. -/
def GoodRoster (w : World) (members : List MemberPayload) : Prop :=
  ∀ m ∈ members, m.ecdh_public_key_jwk = ecdh m.user_id ∧
    GoodRow ecdh chatId w m.user_id m.encrypted_group_key

/-- The contract of a client that started when the epoch was `N` or later. A generated key
    is annotated with the epoch it is for. -/
def clientContract : Program.Contract World Call Call.Answer ℕ where
  allowed w q _ :=
    match q with
    | .server (.putWrappedKey userId wrap none) =>
      N ≤ wrap.stamp ∧ SealedForUser ecdh chatId wrap userId ∧ wrap.Good w
    | .server (.putWrappedKey userId wrap (some claim)) =>
      N ≤ wrap.stamp ∧ SealedForUser ecdh chatId wrap userId ∧
        wrap.stamp = claim + 1 ∧ w.target wrap.key = some (claim + 1)
    | _ => True
  answered w q g r :=
    match q, r with
    | .server .getChat, .ok detail => (∃ e, detail.key_epoch = some e ∧ N ≤ e) ∧
        GoodRoster ecdh chatId w detail.members
    | .server (.putWrappedKey _ wrap (some claim)), .ok keyEpoch =>
      keyEpoch = some (claim + 1) ∧ w.minted (claim + 1) = some wrap.mint
    | .generateKey, key => w.target key = some g
    | _, _ => True

/-- The contract of the routes, for the requests of such a client. A claim is annotated with
    what it mints. -/
def routeContract : Program.Contract World Statement Statement.Result Mint where
  allowed w q g :=
    match q with
    | .writeKey userId wrap => N ≤ wrap.stamp ∧ SealedForUser ecdh chatId wrap userId ∧ wrap.Good w
    | .claimEpoch claim => w.target g.key = some (claim + 1)
    | _ => True
  answered w q g r :=
    match q, r with
    | .chatRow, some epoch => w.epoch ≤ epoch
    | .roster, rows => ∀ p ∈ rows, GoodRow ecdh chatId w p.1 p.2.encryptedGroupKey
    | .claimEpoch claim, some claimed => claimed = claim + 1 ∧ w.minted (claim + 1) = some g
    | _, _ => True

/-- What a response says holds of it from then on. -/
def Replied (r : Request) (w : World) (response : r.Reply) : Prop :=
  (clientContract ecdh chatId N).answered w (.server r) 0 response

end

section
variable {ecdh : UserId → Option Jwk} {chatId : ChatId} {N : ℕ}

theorem clientContract_allowed_mono {w w' : World} {q : Call} {g : ℕ} (hle : w ≤ w')
    (h : (clientContract ecdh chatId N).allowed w q g) :
    (clientContract ecdh chatId N).allowed w' q g := by
  match q with
  | .server (.putWrappedKey _ _ none) => exact ⟨h.1, h.2.1, h.2.2.mono hle⟩
  | .server (.putWrappedKey _ _ (some _)) => exact ⟨h.1, h.2.1, h.2.2.1, hle.2.2 _ _ h.2.2.2⟩
  | .server .getChat | .server .joinChat | .server .leaveChat | .server (.kick _) |
    .server (.patchRole _ _) | .assertTrust _ _ | .generateKey => trivial

theorem routeContract_allowed_mono {w w' : World} {q : Statement} {g : Mint} (hle : w ≤ w')
    (h : (routeContract ecdh chatId N).allowed w q g) :
    (routeContract ecdh chatId N).allowed w' q g := by
  cases q with
  | writeKey => exact ⟨h.1, h.2.1, h.2.2.mono hle⟩
  | claimEpoch => exact hle.2.2 _ _ h
  | _ => trivial

theorem GoodRoster.mono {w w' : World} {members : List MemberPayload} (hle : w ≤ w')
    (h : GoodRoster ecdh chatId w members) : GoodRoster ecdh chatId w' members :=
  fun m hm => ⟨(h m hm).1, (h m hm).2.mono ecdh chatId hle⟩

theorem Replied.mono {r : Request} {w w' : World} {response : r.Reply} (hle : w ≤ w')
    (h : Replied ecdh chatId N r w response) : Replied ecdh chatId N r w' response := by
  cases r with
  | getChat =>
    cases response with
    | error => trivial
    | ok detail => exact ⟨h.1, h.2.mono hle⟩
  | putWrappedKey _ wrap claim =>
    cases claim with
    | none => cases response <;> trivial
    | some claim =>
      cases response with
      | error => trivial
      | ok keyEpoch => exact ⟨h.1, hle.2.1 _ _ h.2⟩
  | _ => trivial

/-- What a client may assume of a response does not depend on what the request is for. -/
theorem replied_answered {r : Request} {w : World} {response : r.Reply} (g : ℕ)
    (h : Replied ecdh chatId N r w response) :
    (clientContract ecdh chatId N).answered w (.server r) g response := by
  cases r with
  | putWrappedKey _ _ claim => cases claim <;> cases response <;> exact h
  | getChat => cases response <;> exact h
  | _ => exact h

theorem lost_answered {r : Request} {w : World} (g : ℕ) :
    (clientContract ecdh chatId N).answered w (.server r) g r.lost := by
  cases r with
  | putWrappedKey _ _ claim => cases claim <;> trivial
  | _ => trivial

/-! ## The routes -/

/-- The rule of a statement that needs nothing and tells nothing. -/
theorem meets_query {α : Type} {post : World → α → Prop} {q : Statement} {f : q.Result → Query α}
    {w : World} (hq : ∀ g, (routeContract ecdh chatId N).allowed w q g)
    (hf : ∀ w', w ≤ w' → ∀ r, (f r).Meets (routeContract ecdh chatId N) post w') :
    (query q >>= f).Meets (routeContract ecdh chatId N) post w :=
  ⟨⟨0, 0⟩, hq _, fun w' hle r _ => hf w' hle r⟩

theorem getChat_meets {w : World} {user : UserId} (hN : N ≤ w.epoch) :
    (getChat ecdh user).Meets (routeContract ecdh chatId N) (Replied ecdh chatId N .getChat) w := by
  refine meets_query (fun _ => trivial) fun w₁ h₁ role => ?_
  cases role with
  | none => trivial
  | some role =>
    refine ⟨⟨0, 0⟩, trivial, fun w₂ h₂ epoch hepoch => ?_⟩
    cases epoch with
    | none => trivial
    | some epoch =>
      have hle : N ≤ epoch := Nat.le_trans hN (Nat.le_trans (le_trans h₁ h₂).1 hepoch)
      refine ⟨⟨0, 0⟩, trivial, fun w₃ _ rows hrows => ⟨⟨epoch, rfl, hle⟩, fun m hm => ?_⟩⟩
      obtain ⟨p, hp, rfl⟩ := List.mem_map.1 hm
      exact ⟨rfl, hrows p hp⟩

theorem putKeyRow_meets {w : World} {userId : UserId} {wrap : SectorKeyAuthWrap}
    {claim claimed : Option ℕ} (hN : N ≤ wrap.stamp) (hsealed : SealedForUser ecdh chatId wrap userId)
    (hgood : wrap.Good w)
    (hclaim : ∀ w', w ≤ w' → Replied ecdh chatId N (.putWrappedKey userId wrap claim) w' (.ok claimed)) :
    (putKeyRow userId wrap claimed).Meets (routeContract ecdh chatId N)
      (Replied ecdh chatId N (.putWrappedKey userId wrap claim)) w :=
  ⟨⟨0, 0⟩, ⟨hN, hsealed, hgood⟩, fun w' hle _ _ => hclaim w' hle⟩

theorem putWrappedKey_meets {w : World} {user userId : UserId} {wrap : SectorKeyAuthWrap}
    {claim : Option ℕ} {g : ℕ}
    (h : (clientContract ecdh chatId N).allowed w (.server (.putWrappedKey userId wrap claim)) g) :
    (putWrappedKey user userId wrap claim).Meets (routeContract ecdh chatId N)
      (Replied ecdh chatId N (.putWrappedKey userId wrap claim)) w := by
  have hrefused : ∀ w' e, Replied ecdh chatId N (.putWrappedKey userId wrap claim) w' (.error e) := by
    intro w' e
    cases claim <;> trivial
  refine meets_query (fun _ => trivial) fun w₁ h₁ row => ?_
  cases row with
  | none => exact hrefused _ _
  | some epoch =>
    refine meets_query (fun _ => trivial) fun w₂ h₂ actorRole => ?_
    split_ifs
    · exact hrefused _ _
    refine meets_query (fun _ => trivial) fun w₃ h₃ targetRole => ?_
    have hle : w ≤ w₃ := le_trans h₁ (le_trans h₂ h₃)
    cases targetRole with
    | none => exact hrefused _ _
    | some targetRole =>
      cases claim with
      | none => exact putKeyRow_meets h.1 h.2.1 (h.2.2.mono hle) fun _ _ => trivial
      | some claim =>
        -- The claim mints the key of the wrap.
        obtain ⟨hN, hsealed, hstamp, htarget⟩ := h
        refine ⟨wrap.mint, hle.2.2 _ _ htarget, fun w₄ h₄ claimed hclaimed => ?_⟩
        cases claimed with
        | none => trivial
        | some claimed =>
          obtain ⟨rfl, hminted⟩ := hclaimed
          have hgood : wrap.Good w₄ := by rw [SectorKeyAuthWrap.Good, hstamp, hminted]
          exact putKeyRow_meets hN hsealed hgood fun w' hle' => ⟨rfl, hle'.2.1 _ _ hminted⟩

theorem joinChat_meets {w : World} {user : UserId} :
    (joinChat user).Meets (routeContract ecdh chatId N) (Replied ecdh chatId N .joinChat) w := by
  refine meets_query (fun _ => trivial) fun w₁ _ row => ?_
  cases row with
  | none => trivial
  | some epoch =>
    refine meets_query (fun _ => trivial) fun w₂ _ role => ?_
    split_ifs
    · trivial
    · exact meets_query (fun _ => trivial) fun _ _ _ => trivial

theorem leaveChat_meets {w : World} {user : UserId} :
    (leaveChat user).Meets (routeContract ecdh chatId N) (Replied ecdh chatId N .leaveChat) w := by
  have hleave : ∀ w', (query (.leave user) >>= fun wasMember =>
      if !wasMember then return .error .notAMember else return .ok () :
        Query (Except ApiError Unit)).Meets (routeContract ecdh chatId N)
          (Replied ecdh chatId N .leaveChat) w' := fun w' =>
    meets_query (fun _ => trivial) fun _ _ wasMember => by cases wasMember <;> trivial
  refine meets_query (fun _ => trivial) fun w₁ _ row => ?_
  cases row with
  | none => trivial
  | some epoch =>
    refine meets_query (fun _ => trivial) fun w₂ _ role => ?_
    cases role with
    | none => trivial
    | some role =>
      dsimp only
      split_ifs
      · refine meets_query (fun _ => trivial) fun w₃ _ transferred => ?_
        cases transferred with
        | true => trivial
        | false => exact hleave w₃
      · exact hleave w₂

theorem kick_meets {w : World} {user target : UserId} :
    (kick user target).Meets (routeContract ecdh chatId N) (Replied ecdh chatId N (.kick target)) w := by
  refine meets_query (fun _ => trivial) fun w₁ _ row => ?_
  cases row with
  | none => trivial
  | some epoch =>
    dsimp only
    split_ifs
    · trivial
    refine meets_query (fun _ => trivial) fun w₂ _ actorRole => ?_
    refine meets_query (fun _ => trivial) fun w₃ _ targetRole => ?_
    rcases actorRole with _ | actorRole <;> rcases targetRole with _ | targetRole
    case some.some =>
      dsimp only
      split_ifs
      · trivial
      · exact meets_query (fun _ => trivial) fun _ _ _ => trivial
    all_goals trivial

theorem patchRole_meets {w : World} {user target : UserId} {role : ChatMemberRole} :
    (patchRole user target role).Meets (routeContract ecdh chatId N)
      (Replied ecdh chatId N (.patchRole target role)) w := by
  refine meets_query (fun _ => trivial) fun w₁ _ row => ?_
  cases row with
  | none => trivial
  | some epoch =>
    refine meets_query (fun _ => trivial) fun w₂ _ actorRole => ?_
    refine meets_query (fun _ => trivial) fun w₃ _ targetRole => ?_
    rcases actorRole with _ | actorRole <;> rcases targetRole with _ | targetRole
    case some.some =>
      dsimp only
      split_ifs
      all_goals first
        | trivial
        | exact meets_query (fun _ => trivial) fun _ _ _ => trivial
    all_goals trivial

/-- The routes keep to their contract, and their responses are what the clients assume. -/
theorem route_meets {w : World} {user : UserId} {r : Request} {g : ℕ} (hN : N ≤ w.epoch)
    (h : (clientContract ecdh chatId N).allowed w (.server r) g) :
    (r.route ecdh user).Meets (routeContract ecdh chatId N) (Replied ecdh chatId N r) w := by
  cases r with
  | getChat => exact getChat_meets hN
  | putWrappedKey => exact putWrappedKey_meets h
  | joinChat => exact joinChat_meets
  | leaveChat => exact leaveChat_meets
  | kick => exact kick_meets
  | patchRole => exact patchRole_meets

/-! ## The clients -/

/-- A client program that keeps to its contract, whatever it returns. -/
abbrev Behaves (ecdh : UserId → Option Jwk) (chatId : ChatId) (N : ℕ) {α : Type} (p : Client α)
    (w : World) : Prop :=
  p.Meets (clientContract ecdh chatId N) (fun _ _ => True) w

/-- The rule of a call that needs nothing. -/
theorem behaves_call {α : Type} {q : Call} {f : q.Answer → Client α} {w : World} (g : ℕ)
    (hq : (clientContract ecdh chatId N).allowed w q g)
    (hf : ∀ w', w ≤ w' → ∀ r, (clientContract ecdh chatId N).answered w' q g r →
      Behaves ecdh chatId N (f r) w') : Behaves ecdh chatId N (call q >>= f) w :=
  ⟨g, hq, hf⟩

theorem behaves_bind {α β : Type} {p : Client β} {f : β → Client α} {w : World}
    (hp : Behaves ecdh chatId N p w) (hf : ∀ w', w ≤ w' → ∀ b, Behaves ecdh chatId N (f b) w') :
    Behaves ecdh chatId N (p >>= f) w :=
  hp.bind fun w' hle b _ => hf w' hle b

theorem Behaves.mono {α : Type} {p : Client α} {w w' : World} (hle : w ≤ w')
    (h : Behaves ecdh chatId N p w) : Behaves ecdh chatId N p w' :=
  Program.Meets.mono (fun _ _ _ _ => clientContract_allowed_mono) (fun _ _ _ _ _ => trivial) hle h

/-- The session is of its user's key pair. -/
def Session.Proper (ecdh : UserId → Option Jwk) (chatId : ChatId) (me : Session) : Prop :=
  me.chatId = chatId ∧ ecdh me.myUserId = some me.myPrivateKey

theorem findMember_mem {detail : ChatDetailPayload} {userId : UserId} {m : MemberPayload}
    (h : findMember detail userId = some m) : m ∈ detail.members ∧ m.user_id = userId :=
  ⟨List.mem_of_find?_eq_some h, by simpa using List.find?_some h⟩

variable {me : Session}

/-- The loop of a rotation keeps to the contract: its key is to be minted for the next
    epoch, and is, once the claim has succeeded. -/
theorem rotateLoop_behaves (hme : me.Proper ecdh chatId) {epoch : ℕ} {newKey : GroupKey}
    {members : List MemberPayload} {settled : Option ℕ} {delivered : ℕ} {w : World}
    (hN : N ≤ epoch) (hmembers : GoodRoster ecdh chatId w members)
    (htarget : w.target newKey = some (epoch + 1))
    (hsettled : ∀ e ∈ settled, e = epoch + 1 ∧
      w.minted (epoch + 1) = some ⟨newKey, me.myPrivateKey⟩) :
    Behaves ecdh chatId N (rotateLoop me epoch me.myPrivateKey newKey members settled delivered) w := by
  induction members generalizing settled delivered w with
  | nil =>
    unfold rotateLoop
    split_ifs <;> trivial
  | cons m members ih =>
    have hrest : GoodRoster ecdh chatId w members := fun m' hm' =>
      hmembers m' (List.mem_cons_of_mem _ hm')
    unfold rotateLoop
    cases hjwk : m.ecdh_public_key_jwk with
    | none => exact ih hrest htarget hsettled
    | some jwk =>
      refine behaves_call 0 trivial fun w₁ h₁ trusted _ => ?_
      have hrest₁ := hrest.mono h₁
      have htarget₁ := h₁.2.2 _ _ htarget
      have hsettled₁ : ∀ e ∈ settled, e = epoch + 1 ∧
          w₁.minted (epoch + 1) = some ⟨newKey, me.myPrivateKey⟩ := fun e he =>
        ⟨(hsettled e he).1, h₁.2.1 _ _ (hsettled e he).2⟩
      cases trusted with
      | false => exact ih hrest₁ htarget₁ hsettled₁
      | true =>
      have huser : ecdh m.user_id = some jwk := by
        rw [← hjwk, (hmembers m List.mem_cons_self).1]
      have hsealed : ∀ e, SealedForUser ecdh chatId
          (boundWrap me.myPrivateKey jwk newKey e ⟨me.chatId, m.user_id⟩) m.user_id := fun e =>
        ⟨jwk, huser, hme.1 ▸ boundWrap_sealedFor ..⟩
      cases settled with
      | some e =>
        obtain ⟨rfl, hminted⟩ := hsettled₁ e rfl
        refine behaves_call 0 ⟨Nat.le_succ_of_le hN, hsealed _, hminted⟩ fun w₂ h₂ result _ => ?_
        have hnext : ∀ d, Behaves ecdh chatId N
            (rotateLoop me epoch me.myPrivateKey newKey members (some (epoch + 1)) d) w₂ := fun d =>
          ih (hrest₁.mono h₂) (h₂.2.2 _ _ htarget₁) fun e he => by
            obtain rfl := Option.some.inj he
            exact ⟨rfl, h₂.2.1 _ _ hminted⟩
        match result with
        | .ok _ => exact hnext _
        | .error .keyEpochStale => trivial
        | .error .notAMember | .error .forbidden | .error .notGroupChat | .error .chatNotFound |
          .error .cannotPatchSelf | .error .useLeave | .error .transferUseOwnerRole |
          .error .network => exact hnext _
      | none =>
        refine behaves_call 0 ⟨Nat.le_succ_of_le hN, hsealed _, rfl, htarget₁⟩ fun w₂ h₂ result hresult => ?_
        have hnext : ∀ d, Behaves ecdh chatId N
            (rotateLoop me epoch me.myPrivateKey newKey members none d) w₂ := fun d =>
          ih (hrest₁.mono h₂) (h₂.2.2 _ _ htarget₁) fun e he => by cases he
        match result with
        | .ok _ =>
          obtain ⟨rfl, hminted⟩ := hresult
          refine ih (hrest₁.mono h₂) (h₂.2.2 _ _ htarget₁) fun e he => ?_
          obtain rfl := Option.some.inj he
          exact ⟨rfl, hminted⟩
        | .error .keyEpochStale => trivial
        | .error .notAMember | .error .forbidden | .error .notGroupChat | .error .chatNotFound |
          .error .cannotPatchSelf | .error .useLeave | .error .transferUseOwnerRole |
          .error .network => exact hnext _

theorem runRotation_behaves (hme : me.Proper ecdh chatId) (targetEpoch : ℕ) (w : World) :
    Behaves ecdh chatId N (runRotation me targetEpoch) w := by
  refine behaves_call 0 trivial fun w₁ _ result hresult => ?_
  cases result with
  | error e => trivial
  | ok detail =>
    dsimp only
    split_ifs
    · trivial
    cases hpub : (findMember detail me.myUserId).bind MemberPayload.ecdh_public_key_jwk with
    | none => trivial
    | some myPubJwk =>
      obtain ⟨m, hm, hjwk⟩ := Option.bind_eq_some_iff.1 hpub
      obtain ⟨hmem, huser⟩ := findMember_mem hm
      have hown : myPubJwk = me.myPrivateKey := by
        rw [(hresult.2 m hmem).1, huser, hme.2] at hjwk
        exact (Option.some.inj hjwk).symm
      subst hown
      obtain ⟨⟨epoch, hepoch, hN⟩, hroster⟩ := hresult
      rw [hepoch]
      refine behaves_call (epoch + 1) trivial fun w₂ h₂ key hkey => ?_
      refine behaves_bind (rotateLoop_behaves hme hN (hroster.mono h₂) hkey ?_)
        fun _ _ _ => trivial
      exact fun e he => by cases he

theorem rotateGroupKeyIfStale_behaves (hme : me.Proper ecdh chatId) (w : World) :
    Behaves ecdh chatId N (rotateGroupKeyIfStale me) w := by
  refine behaves_call 0 trivial fun w₁ _ result _ => ?_
  cases result with
  | error e => trivial
  | ok detail =>
    dsimp only
    split_ifs
    · trivial
    refine behaves_bind (runRotation_behaves hme _ _) fun _ _ result => ?_
    rcases result with e | (_ | _) <;> trivial

theorem unsealBytes_eq_ok {creator member : Jwk} {box : SealedKey} {aad : Option SectorWrapAad}
    {key : GroupKey} (h : unsealBytes creator member box aad = .ok key) : box.rawKey = key := by
  unfold unsealBytes at h
  split_ifs at h
  exact Except.ok.inj h

/-- What a wrap opens to, bound to a creator, is its key, and it is of that creator. -/
theorem unwrap_mint {member expected : Jwk} {wrap : SectorKeyAuthWrap} {binding : WrapBinding}
    {key : GroupKey}
    (h : unwrapGroupKeyFromStoredPayload member wrap (some expected) (some binding) = .ok key) :
    wrap.mint = ⟨key, expected⟩ := by
  unfold unwrapGroupKeyFromStoredPayload at h
  split_ifs at h with hcreator
  have hexpected : wrap.creatorEcdhPublicKeyJwk = expected := by simpa using hcreator
  have hkey : wrap.ciphertext.rawKey = key := by
    split at h
    · exact unsealBytes_eq_ok h
    · cases h
    · split_ifs at h
      exact unsealBytes_eq_ok h
  rw [SectorKeyAuthWrap.mint, SectorKeyAuthWrap.key, hkey, hexpected]

/-- A stamp that is not behind the epoch a client has read is not behind its start. -/
theorem le_stamp_of_current {detail : ChatDetailPayload} {myStored : SectorKeyAuthWrap}
    (h : ∃ e, detail.key_epoch = some e ∧ N ≤ e)
    (hcurrent : detail.key_epoch.getD 0 ≤ (readStoredSectorKeyEpoch myStored).getD 0) :
    N ≤ myStored.stamp := by
  obtain ⟨e, he, hN⟩ := h
  rw [he] at hcurrent
  exact Nat.le_trans hN hcurrent

/-- Delivering the own key under its own stamp keeps to the contract. -/
theorem redelivery_allowed (hme : me.Proper ecdh chatId) {w : World} {myStored : SectorKeyAuthWrap}
    {myPubJwk jwk : Jwk} {groupKey : GroupKey} {userId : UserId} (hN : N ≤ myStored.stamp)
    (hown : ecdh me.myUserId = some myPubJwk) (hgood : myStored.Good w)
    (hunwrap : unwrapOwn me myStored myPubJwk = .ok groupKey) (huser : ecdh userId = some jwk) :
    (clientContract ecdh chatId N).allowed w (.server (.putWrappedKey userId
      (wrapGroupKeyForMemberWithCreatorEcdh me.myPrivateKey jwk groupKey (some myPubJwk)
        (some ((readStoredSectorKeyEpoch myStored).getD 0)) (some ⟨me.chatId, userId⟩)) none)) 0 := by
  obtain rfl : me.myPrivateKey = myPubJwk := Option.some.inj (hme.2.symm.trans hown)
  have hmint : myStored.mint = ⟨groupKey, me.myPrivateKey⟩ := unwrap_mint hunwrap
  refine ⟨hN, ⟨jwk, huser, hme.1 ▸ boundWrap_sealedFor ..⟩, ?_⟩
  show w.minted myStored.stamp = some ⟨groupKey, me.myPrivateKey⟩
  rw [← hmint]
  exact hgood

theorem deliverGroupKeyToMember_behaves (hme : me.Proper ecdh chatId) (target : UserId)
    (w : World) : Behaves ecdh chatId N (deliverGroupKeyToMember me target) w := by
  refine behaves_call 0 trivial fun w₁ _ result hresult => ?_
  cases result with
  | error e => trivial
  | ok detail =>
    dsimp only
    split_ifs
    · trivial
    split
    · rename_i myId myPubJwk myStored _ targetId targetJwk _ hmine htarget
      obtain ⟨hmem, hmyId⟩ := findMember_mem hmine
      obtain ⟨htmem, htargetId⟩ := findMember_mem htarget
      dsimp only at hmyId htargetId
      subst hmyId htargetId
      refine behaves_call 0 trivial fun w₂ h₂ trusted _ => ?_
      cases trusted with
      | false => trivial
      | true =>
        simp only [Bool.not_true, Bool.false_eq_true, ↓reduceIte]
        split_ifs with hepoch
        · refine behaves_bind (rotateGroupKeyIfStale_behaves hme _) fun _ _ result => ?_
          cases result <;> trivial
        · have hN : N ≤ myStored.stamp := le_stamp_of_current hresult.1 (Nat.le_of_not_lt hepoch)
          cases hunwrap : unwrapOwn me myStored myPubJwk with
          | error e => trivial
          | ok groupKey =>
            obtain ⟨hown, hrow⟩ := hresult.2 _ hmem
            have hgood := (hrow _ rfl).1.mono h₂
            refine behaves_call 0 (redelivery_allowed hme hN hown.symm hgood hunwrap
              (hresult.2 _ htmem).1.symm) fun _ _ result _ => ?_
            cases result <;> trivial
    · trivial

/-- The loop of a reconciliation keeps to the contract: the key at hand, if any, is that
    of the own row. -/
theorem reconcileLoop_behaves (hme : me.Proper ecdh chatId) {myStored : SectorKeyAuthWrap}
    (hN : N ≤ myStored.stamp) {myPubJwk : Jwk} {members : List MemberPayload} {groupKey : Option GroupKey}
    {delivered : Bool} {w : World} (hown : ecdh me.myUserId = some myPubJwk)
    (hgood : myStored.Good w) (hmembers : GoodRoster ecdh chatId w members)
    (hkey : ∀ key ∈ groupKey, unwrapOwn me myStored myPubJwk = .ok key) :
    Behaves ecdh chatId N (reconcileLoop me myStored myPubJwk
      ((readStoredSectorKeyEpoch myStored).getD 0) members groupKey delivered) w := by
  induction members generalizing groupKey delivered w with
  | nil => trivial
  | cons m members ih =>
    have hrest : GoodRoster ecdh chatId w members := fun m' hm' =>
      hmembers m' (List.mem_cons_of_mem _ hm')
    unfold reconcileLoop
    split_ifs
    · exact ih hgood hrest hkey
    cases hjwk : m.ecdh_public_key_jwk with
    | none => exact ih hgood hrest hkey
    | some jwk =>
      dsimp only
      split_ifs
      · exact ih hgood hrest hkey
      refine behaves_call 0 trivial fun w₁ h₁ trusted _ => ?_
      cases trusted with
      | false => exact ih (hgood.mono h₁) (hrest.mono h₁) hkey
      | true =>
        simp only [Bool.not_true, Bool.false_eq_true, ↓reduceIte]
        have hunwrap : ∀ key, groupKey.elim (unwrapOwn me myStored myPubJwk) .ok = .ok key →
            unwrapOwn me myStored myPubJwk = .ok key := by
          intro key h
          cases groupKey with
          | none => exact h
          | some key' =>
            obtain rfl : key' = key := Except.ok.inj h
            exact hkey key' rfl
        cases hopen : groupKey.elim (unwrapOwn me myStored myPubJwk) .ok with
        | error e => trivial
        | ok key =>
          have huser : ecdh m.user_id = some jwk := by
            rw [← hjwk, (hmembers m List.mem_cons_self).1]
          refine behaves_call 0 (redelivery_allowed hme hN hown (hgood.mono h₁) (hunwrap key hopen)
            huser) fun w₂ h₂ result _ => ?_
          cases result with
          | error e => trivial
          | ok _ =>
            refine ih (hgood.mono (le_trans h₁ h₂)) (hrest.mono (le_trans h₁ h₂)) fun k hk => ?_
            obtain rfl := Option.some.inj hk
            exact hunwrap _ hopen

theorem reconcileGroupKeysForChat_behaves (hme : me.Proper ecdh chatId) (w : World) :
    Behaves ecdh chatId N (reconcileGroupKeysForChat me) w := by
  refine behaves_call 0 trivial fun w₁ _ result hresult => ?_
  cases result with
  | error e => trivial
  | ok detail =>
    dsimp only
    split_ifs
    · trivial
    split
    · rename_i myId myPubJwk myStored _ hmine
      obtain ⟨hmem, hmyId⟩ := findMember_mem hmine
      dsimp only at hmyId
      subst hmyId
      obtain ⟨hown, hrow⟩ := hresult.2 _ hmem
      split_ifs with hepoch
      · refine behaves_bind (rotateGroupKeyIfStale_behaves hme _) fun _ _ result => ?_
        cases result <;> trivial
      · exact reconcileLoop_behaves hme (le_stamp_of_current hresult.1 (Nat.le_of_not_lt hepoch)) hown.symm
          (hrow _ rfl).1 hresult.2 fun _ h => by cases h
    · trivial

theorem job_behaves (hme : me.Proper ecdh chatId) (job : Job) (w : World) :
    Behaves ecdh chatId N (job.program me) w := by
  have hdone : ∀ {α : Type} {p : Client α}, Behaves ecdh chatId N p w →
      Behaves ecdh chatId N (do let _ ← p : Client Unit) w := fun hp =>
    behaves_bind hp fun _ _ _ => trivial
  cases job with
  | rotate targetEpoch => exact hdone (runRotation_behaves hme targetEpoch w)
  | rotateIfStale => exact hdone (rotateGroupKeyIfStale_behaves hme w)
  | deliver target => exact hdone (deliverGroupKeyToMember_behaves hme target w)
  | reconcile => exact hdone (reconcileGroupKeysForChat_behaves hme w)

end

end OneToThree.Group
