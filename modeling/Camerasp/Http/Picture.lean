import Camerasp.Http.ImageNumber
import Camerasp.Http.Session
import Camerasp.Timer.Serving

/-!
# From the camera to the client

The ring of `timer.cpp` behind the handlers of `httpEventHandler.cpp`: `getImage` copies a slot of
the ring, the handler puts the copy into a response, the response goes over the wire, and the
client reads it.

Results:
* `pictures_delivered`: **a client that asks for `/img.jpg?prev=k`, any number of times while
  the camera goes on taking pictures, is given exactly the bytes of the capture `k` back** at the
  time of the request, or `age` back where the ring's index wraps.
-/

namespace Camerasp.Http.Session

open Camerasp.Lib
open Camerasp.Timer hiding Event

/-- The bytes of a buffer, as characters of a body. -/
def bodyOf (b : Buffer) : List Char := b.map fun x => Char.ofNat x.toNat

@[simp] theorem length_bodyOf (b : Buffer) : (bodyOf b).length = b.length := by simp [bodyOf]

/-- What the handlers read: the file, and `camerasp::getImage` of the timer's state. -/
def siteOf (index : Option (List Char)) (st : State) : Site :=
  ⟨index, fun k => bodyOf (getImage st (Int32.ofInt k))⟩

/-- The URI of the page for the picture `k` back. -/
def imageUri (k : Nat) : List Char :=
  '/' :: "img.jpg".toList ++ '?' :: ("prev".toList ++ '=' :: toDecString k)

theorem ofUri_imageUri (k : Nat) :
    UrlParser.ofUri (imageUri k) = ⟨"img.jpg".toList, "prev".toList, toDecString k⟩ := by
  have hdigits : '&' ∉ toDecString k := TxResponse.not_mem_toDecString (by decide) k
  exact ofUri_value (by decide) (by decide) (takeWhile_of_not_mem (by simp [hdigits]))

/-- **The number in the URI is the number the handler asks for.** -/
theorem imageNumber_imageUri {k : Nat} (hk : k < 2 ^ 31) :
    Wire.imageNumber (UrlParser.ofUri (imageUri k)) = k := by
  have htext : toDecString k = decimalText k := by simp [decimalText, toDecString]
  have hdecimal := isDecimal_decimalText k
  rw [ofUri_imageUri]
  unfold Wire.imageNumber
  rw [if_pos rfl, isInteger_eq, htext, hdecimal.cString, if_pos hdecimal, decimalValue_decimalText,
    clampLong_of_int (by decide) (by omega) (by omega)]
  rfl

section

variable {γ : Type*} (cfg : Config) (grabPicture : γ → Buffer)

/-- A request for the picture `back` captures ago, after the events `events` of the timer. -/
structure PictureVisit where
  visit : Visit
  events : List (Timer.Event γ)
  state : State
  index : Option (List Char)
  back : Nat
  run_eq : (machine cfg grabPicture).run State.init events = .ok state
  site_eq : visit.env.site = siteOf index state
  uri_eq : visit.exchange.request.uri = imageUri back
  back_lt : back < (images (history cfg grabPicture events)).length
  back_le : back < 100
  small : ∀ p ∈ images (history cfg grabPicture events), p.length ≤ longMax

namespace PictureVisit

variable {cfg grabPicture}

/-- The captures so far. -/
def captures (v : PictureVisit cfg grabPicture) : Nat :=
  (images (history cfg grabPicture v.events)).length

/-- The picture that the ring holds for the request. -/
def picture (v : PictureVisit cfg grabPicture) : Option Buffer :=
  previous (history cfg grabPicture v.events) (age v.captures v.back)

theorem outcome_eq (v : PictureVisit cfg grabPicture) :
    some v.visit.outcome = v.picture.map fun p => (200, bodyOf p) := by
  have hback := v.back_le
  have hcount : v.captures = (shots (history cfg grabPicture v.events)).length := images_length _
  have hlt := v.back_lt
  rw [images_length] at hlt
  have hnumber : (Int32.ofInt v.back).toInt = v.back :=
    ofInt_toInt_of_int (by omega) (by omega)
  have hserved := (refines_of_run v.run_eq).getImage hnumber hlt hback
  have hurl : (UrlParser.ofUri (imageUri v.back)).command = "img.jpg".toList := by
    rw [ofUri_imageUri]
  unfold Visit.outcome Session.outcome
  rw [v.uri_eq, v.site_eq, if_pos hurl, imageNumber_imageUri (by omega), picture, hcount, ← hserved]
  rfl

/-- **There is a picture**, and it is what the site has for the request. -/
theorem exists_picture (v : PictureVisit cfg grabPicture) :
    ∃ p, v.picture = some p ∧ v.visit.outcome = (200, bodyOf p) := by
  have houtcome := v.outcome_eq
  cases hp : v.picture with
  | none =>
    rw [hp] at houtcome
    cases houtcome
  | some p =>
    rw [hp, Option.map_some, Option.some_inj] at houtcome
    exact ⟨p, rfl, houtcome⟩

theorem small_outcome (v : PictureVisit cfg grabPicture) : v.visit.outcome.2.length ≤ longMax := by
  obtain ⟨p, hp, houtcome⟩ := v.exists_picture
  have hmem : p ∈ images (history cfg grabPicture v.events) := by
    unfold picture previous at hp
    exact List.mem_reverse.mp (List.mem_of_getElem? hp)
  rw [houtcome, length_bodyOf]
  exact v.small p hmem

end PictureVisit

variable {cfg grabPicture}

/-- The pictures of a list of requests. -/
theorem exists_pictures (vs : List (PictureVisit cfg grabPicture)) :
    ∃ pictures : List Buffer, vs.map PictureVisit.picture = pictures.map some ∧
      vs.map (fun v => v.visit.outcome) = pictures.map fun p => (200, bodyOf p) := by
  induction vs with
  | nil => exact ⟨[], rfl, rfl⟩
  | cons v vs ih =>
    obtain ⟨p, hp, houtcome⟩ := v.exists_picture
    obtain ⟨pictures, hpictures, houtcomes⟩ := ih
    exact ⟨p :: pictures, by rw [List.map_cons, List.map_cons, hp, hpictures],
      by rw [List.map_cons, List.map_cons, houtcome, houtcomes]⟩

/-- **The client is given the pictures it asks for**: there is one for each request. -/
theorem pictures_delivered (code : Nat) (vs : List (PictureVisit cfg grabPicture))
    (hc : (Ends.ready code).Carried (vs.map PictureVisit.visit)) :
    ∃ ds, ∃ pictures : List Buffer,
      ((Ends.ready code).session (vs.map PictureVisit.visit)).client = some ⟨.init, ds⟩ ∧
        vs.map PictureVisit.picture = pictures.map some ∧
        ds.map seenOutcome = pictures.map fun p => some (200, bodyOf p) := by
  have hsmall : ∀ v ∈ vs.map PictureVisit.visit, v.outcome.2.length ≤ longMax := by
    intro v hv
    obtain ⟨v, -, rfl⟩ := List.mem_map.mp hv
    exact v.small_outcome
  have hready : (Ends.ready code).client = some ⟨.init, []⟩ := rfl
  obtain ⟨ds, hclient, hds⟩ :=
    Ends.session_ready _ ⟨⟨rfl, rfl, rfl⟩, code, rfl⟩ hready hsmall hc
  obtain ⟨pictures, hpictures, houtcomes⟩ := exists_pictures vs
  refine ⟨ds, pictures, hclient, hpictures, ?_⟩
  have hsome := congrArg (List.map some) houtcomes
  rw [List.map_map, List.map_map] at hsome
  rw [hds, List.map_map]
  exact hsome

end

namespace Sample

/-- Two captures, of one byte each. -/
def captures : List (Timer.Event Buffer) := [.timeout 30 [1], .timeout 60 [2]]

def state : State :=
  match (machine ⟨30, 100, "img"⟩ id).run State.init captures with
  | .ok st => st
  | .error _ => State.init

/-- The first of them is asked for. -/
def picture : PictureVisit ⟨30, 100, "img"⟩ id where
  visit := Sample.visit (siteOf none state)
    (get (imageUri 1) rfl (List.cons_ne_nil _ _) (Nat.le_of_ble_eq_true rfl))
  events := captures
  state := state
  index := none
  back := 1
  run_eq := rfl
  site_eq := rfl
  uri_eq := rfl
  back_lt := by decide
  back_le := by decide
  small := by decide

end Sample

theorem pictures_delivered_first :
    ∃ ds, ((Ends.ready 204).session [Sample.picture.visit]).client = some ⟨.init, ds⟩ ∧
      ds.map seenOutcome = [some (200, ['\x01'])] := by
  obtain ⟨ds, pictures, hclient, hpictures, hds⟩ := pictures_delivered 204 [Sample.picture]
    ⟨Sample.carries ⟨⟨rfl, rfl, rfl⟩, 204, rfl⟩ _ rfl, trivial⟩
  have hfirst : [Sample.picture].map PictureVisit.picture = [[1]].map some := rfl
  rw [hfirst, List.map_inj_right (fun _ _ => Option.some.inj)] at hpictures
  subst hpictures
  exact ⟨ds, hclient, hds⟩

end Camerasp.Http.Session
