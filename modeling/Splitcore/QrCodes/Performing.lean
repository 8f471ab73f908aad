import Splitcore.Money.Checkout
import Splitcore.Onboarding.Onboarded
import Splitcore.QrCodes.Service

/-!
Whom the active codes name: performers of their venue, as long as no call makes somebody else of
them.
-/

namespace Splitcore.QrCodes

open Relational Interleaving Onboarding

variable {db db' : Db} {op : Operation} {venueId id : Uuid}

/-! ### Performers -/

def Linked (db : Db) (venueId id : Uuid) : Prop :=
  ∃ link ∈ db.venueEntertainers.rows, link.venueId = venueId ∧ link.entertainerId = id

def IsActive (db : Db) (id : Uuid) : Prop := ∃ e ∈ db.entertainers.rows, e.id = id ∧ e.isActive = true

/-- The entertainer is active, and linked to the venue. -/
def Performs (db : Db) (venueId id : Uuid) : Prop := IsActive db id ∧ Linked db venueId id

/-- Every active code that names an entertainer names one that performs at its venue. -/
def NamesPerformers (db : Db) : Prop :=
  ∀ qrCode ∈ db.qrCodes.rows, qrCode.isActive = true → ∀ id, qrCode.entertainerId = some id →
    Performs db qrCode.venueId id

/-- Some active code of the venue names the entertainer. -/
def Live (db : Db) (venueId id : Uuid) : Prop :=
  ∃ qrCode ∈ db.qrCodes.rows, qrCode.isActive = true ∧ qrCode.venueId = venueId ∧
    qrCode.entertainerId = some id

/-! ### What a complete call does -/

/-- What a call made of the tables. -/
inductive Effect (db db' : Db) : Operation → Prop
  | nothing (op : Operation) (hsame : db' = db) : Effect db db' op
  | created (dto : CreateQrCodeDto) (publicToken : String) (id : Uuid)
      (hlinked : ∀ e, dto.entertainerId = some e → Linked db dto.venueId e)
      (hknown : ∀ e, dto.entertainerId = some e → ∃ row ∈ db.entertainers.rows, row.id = e)
      (hcodes : db'.qrCodes.rows = db.qrCodes.rows ++ [created dto publicToken id])
      (hentertainers : db'.entertainers = db.entertainers)
      (hlinks : db'.venueEntertainers = db.venueEntertainers) : Effect db db' (.createQrCode dto)
  | deactivated (id : Uuid) (now : Time)
      (hcodes : db'.qrCodes.rows = db.qrCodes.rows.map fun qr => if qr.id == id then deactivated now qr else qr)
      (hentertainers : db'.entertainers = db.entertainers)
      (hlinks : db'.venueEntertainers = db.venueEntertainers) : Effect db db' (.deactivateQrCode id)
  | replaced (oldQrCode : QrCode) (now : Time) (publicToken : String) (newId : Uuid)
      (hold : oldQrCode ∈ db.qrCodes.rows)
      (hcodes : db'.qrCodes.rows =
        (db.qrCodes.rows.map fun qr => if qr.id == oldQrCode.id then QrCodes.deactivated now qr else qr) ++
          [successor oldQrCode publicToken newId])
      (hentertainers : db'.entertainers = db.entertainers)
      (hlinks : db'.venueEntertainers = db.venueEntertainers) : Effect db db' (.regenerateQrCode oldQrCode.id)
  | entered (dto : CreateEntertainer) (e : Entertainer)
      (hcodes : db'.qrCodes = db.qrCodes)
      (hentertainers : db'.entertainers.rows = db.entertainers.rows ++ [e])
      (hlinks : db'.venueEntertainers = db.venueEntertainers) : Effect db db' (.createEntertainer dto)
  | edited (id : Uuid) (dto : UpdateEntertainer)
      (hcodes : db'.qrCodes = db.qrCodes)
      (hentertainers : db'.entertainers.rows =
        db.entertainers.rows.map fun e => if e.id == id then edited dto e else e)
      (hlinks : db'.venueEntertainers = db.venueEntertainers) : Effect db db' (.updateEntertainer id dto)
  | retired (id : Uuid)
      (hcodes : db'.qrCodes.rows = db.qrCodes.rows.map fun qr =>
        if qr.entertainerId == some id then { qr with isActive := false } else qr)
      (hentertainers : db'.entertainers.rows =
        db.entertainers.rows.map fun e => if e.id == id then { e with isActive := false } else e)
      (hlinks : db'.venueEntertainers = db.venueEntertainers) : Effect db db' (.deactivateEntertainer id)
  | linked (entertainerId venueId : Uuid) (link : VenueEntertainer)
      (hcodes : db'.qrCodes = db.qrCodes) (hentertainers : db'.entertainers = db.entertainers)
      (hlinks : db'.venueEntertainers.rows = db.venueEntertainers.rows ++ [link]) :
      Effect db db' (.linkToVenue entertainerId venueId)
  | unlinked (link : VenueEntertainer) (hlink : link ∈ db.venueEntertainers.rows)
      (hcodes : db'.qrCodes = db.qrCodes) (hentertainers : db'.entertainers = db.entertainers)
      (hlinks : db'.venueEntertainers.rows = db.venueEntertainers.rows.filter (!·.id == link.id)) :
      Effect db db' (.unlinkFromVenue link.entertainerId link.venueId)

section Ends

variable {α β : Type} {site : Site} {m : Tx α} {s s' : Db} {ds : List (Did App)}

/-- A call for what it does, whatever it answers. -/
lemma ends_void {p : Prog App α} {res : Except Err Unit}
    (h : Ends databaseFault (p.bind fun _ => .ret ()) s ds res s') : ∃ ds r, Ends databaseFault p s ds r s' := by
  rcases ends_bind h with ⟨e, -, hp⟩ | ⟨a, ds₁, ds₂, s₁, -, hp, hret⟩
  · exact ⟨_, _, hp⟩
  · obtain ⟨-, -, rfl⟩ := ends_ret hret
    exact ⟨_, _, hp⟩

lemma ends_statement {res : Except Err α} (h : Ends databaseFault (statement site m) s ds res s') :
    s' = s ∨ ∃ w a, m.run w s = .ok (a, s') := by
  obtain ⟨-, ⟨w, a, hm, -⟩ | ⟨hs, -⟩⟩ := ends_command h
  · exact .inr ⟨w, a, hm⟩
  · exact .inl hs

/-- A statement whose errors are caught, and turned into an answer or another error. -/
lemma ends_caught {k : Except Err α → Prog App β} {res : Except Err β}
    (h : Ends databaseFault ((statement site m).attempt.bind k) s ds res s')
    (hok : ∀ a, ∃ b, k (.ok a) = .ret b) (herr : ∀ e, ∃ e', k (.error e) = .raise e') :
    s' = s ∨ ∃ w a, m.run w s = .ok (a, s') := by
  rcases ends_bind h with ⟨e, -, hm⟩ | ⟨r, ds₁, ds₂, s₁, -, hm, hrest⟩
  · obtain ⟨_, -, hm⟩ := ends_attempt hm
    exact ends_statement hm
  · obtain rfl : s' = s₁ := by
      rcases r with e | a
      · obtain ⟨e', he'⟩ := herr e
        rw [he'] at hrest
        exact (ends_raise hrest).2.2
      · obtain ⟨b, hb⟩ := hok a
        rw [hb] at hrest
        exact (ends_ret hrest).2.2
    obtain ⟨_, -, hm⟩ := ends_attempt hm
    exact ends_statement hm

end Ends

section Operations

variable {s s' : Db} {ds : List (Did App)}

lemma generatePublicToken_ok {w : Input} {σ σ' : Db × ℕ} {publicToken : String}
    (h : generatePublicToken w σ = .ok (publicToken, σ')) : σ' = σ := by
  obtain ⟨bytes, σ₁, hbytes, hpure⟩ := Tx.bind_ok.mp h
  rw [(Tx.randomBytes_ok.mp hbytes).2, (Tx.pure_ok.mp hpure).2]

/-- Whoever was named is there, and linked to the venue. -/
lemma ends_check {venueId : Uuid} {named : Option Uuid} {res : Except Err Unit}
    (hends : Ends databaseFault (checkEntertainer venueId named) s ds res s') :
    s' = s ∧ ((∃ u, res = .ok u) → ∀ e, named = some e →
      Linked s venueId e ∧ ∃ row ∈ s.entertainers.rows, row.id = e) := by
  cases named with
  | none => exact ⟨(ends_ret hends).2.2, by simp⟩
  | some e =>
    rcases ends_bind hends with ⟨_, rfl, hq⟩ | ⟨entertainer, _, _, s₁, -, hq, hlink⟩
    · exact ⟨(ends_query hq).1, by simp⟩
    obtain ⟨rfl, -, hres⟩ := ends_query hq
    split at hlink
    · obtain ⟨-, rfl, rfl⟩ := ends_raise hlink
      exact ⟨rfl, by simp⟩
    rename_i hentertainer
    rcases ends_bind hlink with ⟨_, rfl, hq'⟩ | ⟨link, _, _, s₂, -, hq', hlast⟩
    · exact ⟨(ends_query hq').1, by simp⟩
    obtain ⟨rfl, -, hres'⟩ := ends_query hq'
    split at hlast
    · obtain ⟨-, rfl, rfl⟩ := ends_raise hlast
      exact ⟨rfl, by simp⟩
    rename_i hlinked
    obtain ⟨-, -, rfl⟩ := ends_ret hlast
    refine ⟨rfl, fun _ e' he' => ?_⟩
    obtain rfl : e = e' := Option.some.inj he'
    obtain ⟨row, rfl⟩ := Option.ne_none_iff_exists'.mp (mt Option.isNone_iff_eq_none.mpr hentertainer)
    obtain ⟨row', rfl⟩ := Option.ne_none_iff_exists'.mp (mt Option.isNone_iff_eq_none.mpr hlinked)
    have hfind : s'.entertainers.find (·.id == e) = some row := by simpa [eq_comm] using hres
    have hfind' : s'.venueEntertainers.find (links venueId e) = some row' := by simpa [eq_comm] using hres'
    have hboth := Table.of_find hfind'
    simp only [links, Bool.and_eq_true, beq_iff_eq] at hboth
    exact ⟨⟨row', Table.mem_of_find hfind', hboth⟩, row, Table.mem_of_find hfind,
      eq_of_beq (Table.of_find hfind :)⟩

lemma ends_create {dto : CreateQrCodeDto} {res : Except Err QrCode}
    (hends : Ends databaseFault (create dto) s ds res s') : Effect s s' (.createQrCode dto) := by
  rcases ends_bind hends with ⟨_, -, hq⟩ | ⟨venue, _, _, s₁, -, hq, hrest⟩
  · exact .nothing _ (ends_query hq).1
  obtain ⟨rfl, -⟩ := ends_query hq
  split at hrest
  · exact .nothing _ (ends_raise hrest).2.2
  rcases ends_bind hrest with ⟨_, -, hcheck⟩ | ⟨u, _, _, s₂, -, hcheck, hinsert⟩
  · exact .nothing _ (ends_check hcheck).1
  obtain ⟨rfl, hnamed⟩ := ends_check hcheck
  rcases ends_statement hinsert with rfl | ⟨w, qrCode, hm⟩
  · exact .nothing _ rfl
  obtain ⟨n, hn⟩ := Tx.run_ok.mp hm
  obtain ⟨publicToken, σ₁, htoken, hn⟩ := Tx.bind_ok.mp hn
  obtain rfl := generatePublicToken_ok htoken
  obtain ⟨id, σ₃, hid, hn⟩ := Tx.bind_ok.mp hn
  obtain ⟨-, rfl⟩ := Tx.freshId_ok.mp hid
  obtain ⟨⟨⟩, σ₄, hcreate, hn⟩ := Tx.bind_ok.mp hn
  obtain ⟨t, ht, rfl⟩ := Model.create_ok hcreate
  obtain ⟨-, hs⟩ := Tx.pure_ok.mp hn
  cases hs
  exact .created dto publicToken id (fun e he => (hnamed ⟨u, rfl⟩ e he).1)
    (fun e he => (hnamed ⟨u, rfl⟩ e he).2) (Table.rows_insert ht) rfl rfl

lemma ends_deactivate {id : Uuid} {res : Except Err QrCode}
    (h : Ends databaseFault (deactivate id) s ds res s') : Effect s s' (.deactivateQrCode id) := by
  rcases ends_caught h (fun _ => ⟨_, rfl⟩) (fun _ => ⟨_, rfl⟩) with rfl | ⟨w, a, hm⟩
  · exact .nothing _ rfl
  obtain ⟨n, hn⟩ := Tx.run_ok.mp hm
  obtain ⟨now, σ, hnow, hn⟩ := Tx.bind_ok.mp hn
  obtain ⟨-, rfl⟩ := Tx.now_ok.mp hnow
  obtain ⟨t, ht, hs, -, -⟩ := Model.updateOne_ok hn
  cases hs
  exact .deactivated id now (Table.rows_update ht) rfl rfl

lemma ends_regenerate {id : Uuid} {res : Except Err QrCode}
    (h : Ends databaseFault (regenerate id) s ds res s') : Effect s s' (.regenerateQrCode id) := by
  rcases ends_statement h with rfl | ⟨w, qrCode, hm⟩
  · exact .nothing _ rfl
  obtain ⟨n, hn⟩ := Tx.run_ok.mp hm
  obtain ⟨found, σ₁, hfind, hn⟩ := Tx.bind_ok.mp hn
  obtain ⟨hfound, rfl⟩ := Model.findFirst_ok.mp hfind
  rcases found with _ | oldQrCode
  · simp at hn
  obtain ⟨now, σ₂, hnow, hn⟩ := Tx.bind_ok.mp hn
  obtain ⟨-, rfl⟩ := Tx.now_ok.mp hnow
  obtain ⟨⟨⟩, σ₃, hupdate, hn⟩ := Tx.bind_ok.mp hn
  obtain ⟨t, ht, rfl⟩ := Model.update_ok hupdate
  obtain ⟨publicToken, σ₄, htoken, hn⟩ := Tx.bind_ok.mp hn
  obtain rfl := generatePublicToken_ok htoken
  obtain ⟨newId, σ₆, hid, hn⟩ := Tx.bind_ok.mp hn
  obtain ⟨-, rfl⟩ := Tx.freshId_ok.mp hid
  obtain ⟨⟨⟩, σ₇, hcreate, hn⟩ := Tx.bind_ok.mp hn
  obtain ⟨t', ht', rfl⟩ := Model.create_ok hcreate
  obtain ⟨-, hs⟩ := Tx.pure_ok.mp hn
  cases hs
  obtain rfl : oldQrCode.id = id := eq_of_beq (Table.of_find hfound :)
  refine .replaced oldQrCode now publicToken newId (Table.mem_of_find hfound) ?_ rfl rfl
  exact (Table.rows_insert ht').trans (congrArg (· ++ _) (Table.rows_update ht))

lemma ends_createEntertainer {dto : CreateEntertainer} {res : Except Err (Entertainer × List Uuid)}
    (h : Ends databaseFault (Onboarding.create dto) s ds res s') : Effect s s' (.createEntertainer dto) := by
  rcases ends_caught h (fun _ => ⟨_, rfl⟩) (fun e => by cases e <;> exact ⟨_, rfl⟩) with rfl | ⟨w, e, hm⟩
  · exact .nothing _ rfl
  obtain ⟨n, hn⟩ := Tx.run_ok.mp hm
  obtain ⟨id, σ₁, hid, hn⟩ := Tx.bind_ok.mp hn
  obtain ⟨-, rfl⟩ := Tx.freshId_ok.mp hid
  obtain ⟨⟨⟩, σ₂, hcreate, hn⟩ := Tx.bind_ok.mp hn
  obtain ⟨t, ht, rfl⟩ := Model.create_ok hcreate
  obtain ⟨-, hs⟩ := Tx.pure_ok.mp hn
  cases hs
  exact .entered dto _ rfl (Table.rows_insert ht) rfl

lemma ends_update {id : Uuid} {dto : UpdateEntertainer} {res : Except Err (Entertainer × List Uuid)}
    (h : Ends databaseFault (update id dto) s ds res s') : Effect s s' (.updateEntertainer id dto) := by
  rcases ends_caught h (fun _ => ⟨_, rfl⟩) (fun e => by cases e <;> exact ⟨_, rfl⟩) with rfl | ⟨w, e, hm⟩
  · exact .nothing _ rfl
  obtain ⟨n, hn⟩ := Tx.run_ok.mp hm
  obtain ⟨entertainer, σ₁, hupdate, hn⟩ := Tx.bind_ok.mp hn
  obtain ⟨t, ht, rfl, -, -⟩ := Model.updateOne_ok hupdate
  obtain ⟨venues, σ₂, hread, hn⟩ := Tx.bind_ok.mp hn
  obtain ⟨-, rfl⟩ := Tx.read_ok.mp hread
  obtain ⟨-, hs⟩ := Tx.pure_ok.mp hn
  cases hs
  exact .edited id dto rfl (Table.rows_update ht) rfl

lemma ends_deactivateEntertainer {id : Uuid} {res : Except Err (Entertainer × List Uuid)}
    (h : Ends databaseFault (Onboarding.deactivate id) s ds res s') : Effect s s' (.deactivateEntertainer id) := by
  rcases ends_caught h (fun _ => ⟨_, rfl⟩) (fun e => by cases e <;> exact ⟨_, rfl⟩) with rfl | ⟨w, e, hm⟩
  · exact .nothing _ rfl
  obtain ⟨n, hn⟩ := Tx.run_ok.mp hm
  obtain ⟨entertainer, σ₁, hupdate, hn⟩ := Tx.bind_ok.mp hn
  obtain ⟨t, ht, rfl, -, -⟩ := Model.updateOne_ok hupdate
  obtain ⟨venues, σ₂, hread, hn⟩ := Tx.bind_ok.mp hn
  obtain ⟨-, rfl⟩ := Tx.read_ok.mp hread
  obtain ⟨count, σ₃, hcodes, hn⟩ := Tx.bind_ok.mp hn
  obtain ⟨-, t', ht', rfl⟩ := Model.updateMany_ok hcodes
  obtain ⟨-, hs⟩ := Tx.pure_ok.mp hn
  cases hs
  exact .retired id (Table.rows_update ht') (Table.rows_update ht) rfl

lemma ends_linkToVenue {entertainerId venueId : Uuid} {res : Except Err VenueEntertainer}
    (h : Ends databaseFault (Onboarding.linkToVenue entertainerId venueId) s ds res s') :
    Effect s s' (.linkToVenue entertainerId venueId) := by
  rcases ends_caught h (fun _ => ⟨_, rfl⟩) (fun e => by cases e <;> exact ⟨_, rfl⟩) with rfl | ⟨w, link, hm⟩
  · exact .nothing _ rfl
  obtain ⟨n, hn⟩ := Tx.run_ok.mp hm
  obtain ⟨id, σ₁, hid, hn⟩ := Tx.bind_ok.mp hn
  obtain ⟨-, rfl⟩ := Tx.freshId_ok.mp hid
  obtain ⟨⟨⟩, σ₂, hcreate, hn⟩ := Tx.bind_ok.mp hn
  obtain ⟨t, ht, rfl⟩ := Model.create_ok hcreate
  obtain ⟨known, σ₃, hread, hn⟩ := Tx.bind_ok.mp hn
  obtain ⟨-, rfl⟩ := Tx.read_ok.mp hread
  split at hn
  · obtain ⟨-, hs⟩ := Tx.pure_ok.mp hn
    cases hs
    exact .linked entertainerId venueId _ rfl rfl (Table.rows_insert ht)
  · exact (Tx.throw_ok.mp hn).elim

lemma ends_unlinkFromVenue {entertainerId venueId : Uuid} {res : Except Err Unit}
    (h : Ends databaseFault (Onboarding.unlinkFromVenue entertainerId venueId) s ds res s') :
    Effect s s' (.unlinkFromVenue entertainerId venueId) := by
  rcases ends_bind h with ⟨_, -, hq⟩ | ⟨found, _, _, s₁, -, hq, hrest⟩
  · exact .nothing _ (ends_query hq).1
  obtain ⟨rfl, -, hres⟩ := ends_query hq
  rcases found with _ | link
  · exact .nothing _ (ends_raise hrest).2.2
  have hfind : s₁.venueEntertainers.find (links venueId entertainerId) = some link := by
    simpa [eq_comm] using hres
  have hboth := Table.of_find hfind
  simp only [links, Bool.and_eq_true, beq_iff_eq] at hboth
  obtain ⟨rfl, rfl⟩ := hboth
  rcases ends_statement hrest with rfl | ⟨w, u, hm⟩
  · exact .nothing _ rfl
  obtain ⟨n, hn⟩ := Tx.run_ok.mp hm
  cases Model.delete_ok hn
  exact .unlinked link (Table.mem_of_find hfind) rfl rfl rfl

/-- **A complete call**, and what it made of the tables. -/
theorem ends_effect {op : Operation} {res : Except Err Unit} (h : Ends databaseFault op.program s ds res s') :
    Effect s s' op := by
  cases op with
  | createQrCode dto => obtain ⟨_, _, h⟩ := ends_void h; exact ends_create h
  | deactivateQrCode id => obtain ⟨_, _, h⟩ := ends_void h; exact ends_deactivate h
  | regenerateQrCode id => obtain ⟨_, _, h⟩ := ends_void h; exact ends_regenerate h
  | createEntertainer dto => obtain ⟨_, _, h⟩ := ends_void h; exact ends_createEntertainer h
  | updateEntertainer id dto => obtain ⟨_, _, h⟩ := ends_void h; exact ends_update h
  | deactivateEntertainer id => obtain ⟨_, _, h⟩ := ends_void h; exact ends_deactivateEntertainer h
  | linkToVenue entertainerId venueId => obtain ⟨_, _, h⟩ := ends_void h; exact ends_linkToVenue h
  | unlinkFromVenue entertainerId venueId => exact ends_unlinkFromVenue h

end Operations

/-! ### What the calls keep -/

/-- No active code comes to name somebody who is not a performer of its venue: a new one names no
inactive entertainer, nor does one made in place of an old one, and nobody is set inactive or unlinked
whom an active code names. -/
def Respects (db : Db) : Operation → Prop
  | .createQrCode dto => ∀ id, dto.entertainerId = some id → Linked db dto.venueId id → IsActive db id
  | .regenerateQrCode id => ∀ qrCode ∈ db.qrCodes.rows, qrCode.id = id →
      ∀ e, qrCode.entertainerId = some e → Performs db qrCode.venueId e
  | .updateEntertainer id dto => dto.isActive = some false → ∀ venueId, ¬Live db venueId id
  | .unlinkFromVenue entertainerId venueId => ¬Live db venueId entertainerId
  | _ => True

/-- Codes that are active afterwards were there, and whom they named still performs. -/
lemma NamesPerformers.of_kept (h : NamesPerformers db)
    (hcodes : ∀ qr ∈ db'.qrCodes.rows, qr.isActive = true → qr ∈ db.qrCodes.rows)
    (hkept : ∀ venueId id, Live db' venueId id → Performs db venueId id → Performs db' venueId id) :
    NamesPerformers db' := by
  intro qr hqr hactive id hid
  have hbefore : Performs db qr.venueId id := h qr (hcodes qr hqr hactive) hactive id hid
  exact hkept _ _ ⟨qr, hqr, hactive, rfl, hid⟩ hbefore

/-- Of codes that were deactivated, those that are active were left alone. -/
lemma active_of_map {rows : List QrCode} {p : QrCode → Bool} {f : QrCode → QrCode}
    (hf : ∀ qr, (f qr).isActive = false) {qr : QrCode}
    (hqr : qr ∈ rows.map fun qr => if p qr then f qr else qr) (hactive : qr.isActive = true) :
    qr ∈ rows ∧ p qr = false := by
  obtain ⟨qr₀, hqr₀, rfl⟩ := List.mem_map.mp hqr
  by_cases hp : p qr₀ = true
  · rw [if_pos hp, hf] at hactive
    cases hactive
  · rw [if_neg hp] at hactive ⊢
    exact ⟨hqr₀, Bool.not_eq_true _ ▸ hp⟩

lemma Performs.of_same (h : Performs db venueId id) (hentertainers : db'.entertainers = db.entertainers)
    (hlinks : db'.venueEntertainers = db.venueEntertainers) : Performs db' venueId id := by
  unfold Performs IsActive Linked at h ⊢
  rw [hentertainers, hlinks]
  exact h

/-- An entertainer that is not set inactive stays active. -/
lemma IsActive.of_map {f : Entertainer → Entertainer} {p : Entertainer → Bool} (h : IsActive db id)
    (hrows : db'.entertainers.rows = db.entertainers.rows.map fun e => if p e then f e else e)
    (hf : ∀ e, e.id = id → e.isActive = true → p e = true → (f e).id = id ∧ (f e).isActive = true) :
    IsActive db' id := by
  obtain ⟨e, he, hid, hactive⟩ := h
  refine ⟨if p e then f e else e, ?_, ?_⟩
  · rw [hrows]
    exact List.mem_map_of_mem he
  · by_cases hp : p e = true
    · rw [if_pos hp]
      exact hf e hid hactive hp
    · rw [if_neg hp]
      exact ⟨hid, hactive⟩

/-- **One call.** -/
theorem Effect.names_performers (heffect : Effect db db' op) (hrespects : Respects db op)
    (h : NamesPerformers db) : NamesPerformers db' := by
  cases heffect with
  | nothing _ hsame => rw [hsame]; exact h
  | created dto publicToken newId hlinked hknown hcodes hentertainers hlinks =>
    intro qr hqr hactive id hid
    rw [hcodes, List.mem_append, List.mem_singleton] at hqr
    rcases hqr with hold | rfl
    · exact (h qr hold hactive id hid).of_same hentertainers hlinks
    · have hlink : Linked db dto.venueId id := hlinked id hid
      have hperforms : Performs db dto.venueId id := ⟨hrespects id hid hlink, hlink⟩
      exact hperforms.of_same hentertainers hlinks
  | deactivated id now hcodes hentertainers hlinks =>
    refine h.of_kept (fun qr hqr hactive => ?_) fun _ _ _ hp => hp.of_same hentertainers hlinks
    rw [hcodes] at hqr
    exact (active_of_map (fun _ => rfl) hqr hactive).1
  | replaced oldQrCode now publicToken newId hold hcodes hentertainers hlinks =>
    intro qr hqr hactive id hid
    rw [hcodes, List.mem_append, List.mem_singleton] at hqr
    rcases hqr with hqr | rfl
    · have hmem := (active_of_map (fun _ => rfl) hqr hactive).1
      exact (h qr hmem hactive id hid).of_same hentertainers hlinks
    · have hperforms : Performs db oldQrCode.venueId id := hrespects oldQrCode hold rfl id hid
      exact hperforms.of_same hentertainers hlinks
  | entered dto e hcodes hentertainers hlinks =>
    refine h.of_kept (fun qr hqr _ => hcodes ▸ hqr)
      fun venueId id _ ⟨⟨e', he', hactive⟩, hlink⟩ => ⟨?_, ?_⟩
    · exact ⟨e', by rw [hentertainers]; exact List.mem_append_left _ he', hactive⟩
    · unfold Linked
      rw [hlinks]
      exact hlink
  | edited id dto hcodes hentertainers hlinks =>
    refine h.of_kept (fun qr hqr _ => hcodes ▸ hqr) fun venueId id' hlive ⟨hactive, hlink⟩ => ⟨?_, ?_⟩
    · refine hactive.of_map hentertainers fun e heid heactive hp => ⟨heid, ?_⟩
      obtain rfl : id' = id := heid.symm.trans (eq_of_beq hp)
      -- whom a code names was not set inactive
      have hnot : dto.isActive ≠ some false := by
        intro hfalse
        refine hrespects hfalse venueId ?_
        unfold Live at hlive ⊢
        rw [← hcodes]
        exact hlive
      show dto.isActive.getD e.isActive = true
      rcases hdto : dto.isActive with _ | _ | _
      · exact heactive
      · exact absurd hdto hnot
      · rfl
    · unfold Linked
      rw [hlinks]
      exact hlink
  | retired id hcodes hentertainers hlinks =>
    have hrest : ∀ qr ∈ db'.qrCodes.rows, qr.isActive = true →
        qr ∈ db.qrCodes.rows ∧ (qr.entertainerId == some id) = false := by
      intro qr hqr hactive
      rw [hcodes] at hqr
      exact active_of_map (fun _ => rfl) hqr hactive
    refine h.of_kept (fun qr hqr hactive => (hrest qr hqr hactive).1)
      fun venueId id' ⟨qr, hqr, hactive, _, hnames⟩ ⟨hactive', hlink⟩ => ⟨?_, ?_⟩
    · -- the codes of the entertainer went with them
      refine hactive'.of_map hentertainers fun e heid _ hp => ?_
      have hne := (hrest qr hqr hactive).2
      rw [hnames, ← heid, eq_of_beq hp] at hne
      simp at hne
    · unfold Linked
      rw [hlinks]
      exact hlink
  | linked entertainerId venueId link hcodes hentertainers hlinks =>
    refine h.of_kept (fun qr hqr _ => hcodes ▸ hqr) fun _ _ _ ⟨hactive, link', hlink', hboth⟩ => ⟨?_, ?_⟩
    · unfold IsActive
      rw [hentertainers]
      exact hactive
    · exact ⟨link', by rw [hlinks]; exact List.mem_append_left _ hlink', hboth⟩
  | unlinked link hlink hcodes hentertainers hlinks =>
    refine h.of_kept (fun qr hqr _ => hcodes ▸ hqr)
      fun venueId id hlive ⟨hactive, link', hlink', hvenue, hid⟩ => ⟨?_, link', ?_, hvenue, hid⟩
    · unfold IsActive
      rw [hentertainers]
      exact hactive
    · rw [hlinks, List.mem_filter]
      refine ⟨hlink', ?_⟩
      by_contra hgone
      -- the link that went is the one the code needs
      have hsame : link' = link := by
        refine Table.eq_of_key hlink' hlink (k := .id link.id) ?_ (by simp [Indexed.keys])
        have hids : link'.id = link.id := by simpa using hgone
        simp [Indexed.keys, hids]
      refine hrespects ?_
      unfold Live at hlive ⊢
      rw [← hcodes, ← hsame, hvenue, hid]
      exact hlive

/-! ### Sequences of calls -/

abbrev AdminDone := Done App Operation Unit

/-- The sequences of complete calls. -/
abbrev AdminHistory : Db → List AdminDone → Db → Prop := History databaseFault Operation.program

/-- Wherever complete calls lead that are all `ok`, the active codes name performers of their venue. -/
def AlwaysNamesPerformers (ok : AdminDone → Prop) (s₀ : Db) : Prop :=
  ∀ ds s, AdminHistory s₀ ds s → (∀ d ∈ ds, ok d) → NamesPerformers s

/-- **Active codes only ever name performers of their venue**, in every sequence of calls that respect
it. -/
theorem codes_name_performers {s₀ : Db} (h : NamesPerformers s₀) :
    AlwaysNamesPerformers (fun d => Respects d.before d.label) s₀ := by
  intro ds s hist hrespects
  induction hist with
  | nil => exact h
  | snoc hist hd ih =>
    have hbefore := ih fun d hd => hrespects d (List.mem_append_left _ hd)
    exact (ends_effect hd).names_performers (hrespects _ (by simp)) hbefore

/-! ### Sequences that lead elsewhere -/

/-- A venue and an entertainer, and no codes. -/
def stage : Db :=
  { venues := ⟨[Money.sampleVenue], Money.sampleVenue_keys⟩
    entertainers := ⟨[Money.sampleEntertainer], Money.sampleEntertainer_keys⟩ }

lemma stage_names : NamesPerformers stage := fun _ hqr => by cases hqr

def drawnAt (k : ℕ) : Input := { Money.inputAt k with randomBytes := toString k }

/-- The entertainer is linked, and gets a code. -/
def engaged : List (Operation × Input) :=
  [(.linkToVenue (Money.uid 3) (Money.uid 2), drawnAt 1),
    (.createQrCode ⟨Money.uid 2, some (Money.uid 3), "Stage"⟩, drawnAt 2)]

/-- Whether the call is a link, or a code for somebody active. -/
def isEngagement (d : AdminDone) : Bool := match d.label with
  | .linkToVenue _ _ => true
  | .createQrCode dto => dto.entertainerId.all fun id =>
    d.before.entertainers.rows.any fun e => e.id == id && e.isActive
  | _ => false

lemma respects_engagement {d : AdminDone} (h : isEngagement d = true) : Respects d.before d.label := by
  unfold isEngagement at h
  split at h
  · rename_i hlabel
    rw [hlabel]
    trivial
  · rename_i dto hlabel
    rw [hlabel]
    intro id hid _
    rw [hid, Option.all_some, List.any_eq_true] at h
    obtain ⟨e, he, hboth⟩ := h
    simp only [Bool.and_eq_true, beq_iff_eq] at hboth
    exact ⟨e, he, hboth⟩
  · cases h

/-- The entertainer gets a code, and performs at the venue. -/
theorem codes_name_performers_sample : ∃ ds s, AdminHistory stage ds s ∧
    (∀ d ∈ ds, Respects d.before d.label) ∧ (∃ qr ∈ s.qrCodes.rows, qr.isActive = true) ∧
    NamesPerformers s := by
  have hist := history_perform (o := Money.agreeable) engaged
    (.nil : AdminHistory stage [] stage)
  have hall : ((perform Operation.program Money.agreeable [] stage engaged).1.all isEngagement) = true := by
    decide +kernel
  have hcode : ((perform Operation.program Money.agreeable [] stage engaged).2.qrCodes.rows.any
      (·.isActive)) = true := by decide +kernel
  have hrespects := fun d hd => respects_engagement (List.all_eq_true.mp hall d hd)
  exact ⟨_, _, hist, hrespects, List.any_eq_true.mp hcode,
    codes_name_performers stage_names _ _ hist hrespects⟩

/-- Somebody who is set inactive by an edit, is removed from the venue, has a code made anew when they are
inactive, or gets one then. -/
def wrongWays : List (List (Operation × Input)) :=
  [engaged ++ [(.updateEntertainer (Money.uid 3) ⟨none, none, none, none, none, some false⟩, drawnAt 3)],
    engaged ++ [(.unlinkFromVenue (Money.uid 3) (Money.uid 2), drawnAt 3)],
    engaged ++ [(.deactivateEntertainer (Money.uid 3), drawnAt 3), (.regenerateQrCode (Money.uid 2000), drawnAt 4)],
    [(.linkToVenue (Money.uid 3) (Money.uid 2), drawnAt 1), (.deactivateEntertainer (Money.uid 3), drawnAt 2),
      (.createQrCode ⟨Money.uid 2, some (Money.uid 3), "Stage"⟩, drawnAt 3)]]

def namesPerformers (db : Db) : Bool := db.qrCodes.rows.all fun qr => !qr.isActive || qr.entertainerId.all fun id =>
  (db.entertainers.rows.any fun e => e.id == id && e.isActive) && db.venueEntertainers.rows.any (links qr.venueId id)

lemma namesPerformers_of (h : NamesPerformers db) : namesPerformers db = true := by
  refine List.all_eq_true.mpr fun qr hqr => ?_
  rcases hactive : qr.isActive with _ | _
  · rfl
  rcases hid : qr.entertainerId with _ | id
  · rfl
  obtain ⟨⟨e, he, heid, heactive⟩, link, hlink, hvenue, hlinked⟩ := h qr hqr hactive id hid
  simp only [Bool.not_true, Bool.false_or, Option.all_some, Bool.and_eq_true, List.any_eq_true, links, beq_iff_eq]
  exact ⟨⟨e, he, heid, heactive⟩, link, hlink, hvenue, hlinked⟩

/-- Each of these ways leads to an active code that names nobody who performs there. -/
theorem code_of_nobody : ∀ acts ∈ wrongWays, ∃ ds s, AdminHistory stage ds s ∧
    ds.map (·.label) = acts.map Prod.fst ∧ ¬NamesPerformers s := by
  intro acts hacts
  have hwrong : (wrongWays.all fun acts =>
      !namesPerformers (perform Operation.program Money.agreeable [] stage acts).2) = true := by decide +kernel
  obtain ⟨ds, hds, hlabels⟩ := perform_labels Operation.program Money.agreeable acts [] stage
  refine ⟨_, _, history_perform (o := Money.agreeable) acts .nil, ?_, fun hnames => ?_⟩
  · rw [hds]
    exact hlabels
  · have hnot := List.all_eq_true.mp hwrong acts hacts
    rw [namesPerformers_of hnames] at hnot
    cases hnot

theorem not_always_performers : ¬AlwaysNamesPerformers (fun _ => True) stage := by
  intro halways
  obtain ⟨ds, s, hist, -, hnot⟩ := code_of_nobody _ (List.mem_cons_self (l := wrongWays.tail))
  exact hnot (halways ds s hist fun _ _ => trivial)

end Splitcore.QrCodes
