import PolicyWarden.Json.Decoding

/-!
The part of an object that is the same for all kinds of objects of a cluster: names, revision,
labels and who owns it. What is not named here is dropped when an object is read, and of members of
one name the last one counts.
-/

namespace PolicyWarden

open Json

structure Owner where
  apiVersion : String
  blocksDeletion : Option Bool
  controls : Option Bool
  kind : String
  name : String
  uid : String
deriving DecidableEq, Repr

namespace Owner

def decode : Json → Decoded Owner
  | .object members => do
      let apiVersion ← readLast members "apiVersion" decodeText
      let blocksDeletion ← readLast members "blockOwnerDeletion" decodeBoolean
      let controls ← readLast members "controller" decodeBoolean
      let kind ← readLast members "kind" decodeText
      let name ← readLast members "name" decodeText
      let uid ← readLast members "uid" decodeText
      return {
        apiVersion := apiVersion.getD ""
        blocksDeletion, controls
        kind := kind.getD ""
        name := name.getD ""
        uid := uid.getD "" }
  | other => .error (.kind other "OwnerReference")

def encode (owner : Owner) : Json :=
  .object <|
    [("apiVersion", .text owner.apiVersion)] ++
    memberOf "blockOwnerDeletion" .boolean owner.blocksDeletion ++
    memberOf "controller" .boolean owner.controls ++
    [("kind", .text owner.kind), ("name", .text owner.name), ("uid", .text owner.uid)]

end Owner

structure FieldManager where
  apiVersion : Option String
  fieldsType : Option String
  fields : Option Json
  manager : Option String
  operation : Option String
  subresource : Option String
  time : Option Timestamp
deriving Repr

namespace FieldManager

def decode : Json → Decoded FieldManager
  | .object members => do
      let apiVersion ← readLast members "apiVersion" decodeText
      let fieldsType ← readLast members "fieldsType" decodeText
      let fields ← readLast members "fieldsV1" fun document => .ok document
      let manager ← readLast members "manager" decodeText
      let operation ← readLast members "operation" decodeText
      let subresource ← readLast members "subresource" decodeText
      let time ← readLast members "time" decodeTimestamp
      return { apiVersion, fieldsType, fields, manager, operation, subresource, time }
  | other => .error (.kind other "ManagedFieldsEntry")

def encode (manager : FieldManager) : Json :=
  .object <|
    memberOf "apiVersion" .text manager.apiVersion ++
    memberOf "fieldsType" .text manager.fieldsType ++
    memberOf "fieldsV1" id manager.fields ++
    memberOf "manager" .text manager.manager ++
    memberOf "operation" .text manager.operation ++
    memberOf "subresource" .text manager.subresource ++
    memberOf "time" (fun time => .text time.text) manager.time

end FieldManager

structure Metadata where
  annotations : Option (List (String × String)) := none
  creation : Option Timestamp := none
  deletionGraceSeconds : Option Int := none
  deletion : Option Timestamp := none
  finalizers : Option (List String) := none
  /-- What a cluster makes a name from if there is none. -/
  generateName : Option String := none
  generation : Option Int := none
  labels : Option (List (String × String)) := none
  managers : Option (List FieldManager) := none
  name : Option String := none
  area : Option String := none
  owners : Option (List Owner) := none
  revision : Option String := none
  selfLink : Option String := none
  uid : Option String := none
deriving Repr

namespace Metadata

def decode : Json → Decoded Metadata
  | .object members => do
      let annotations ← readLast members "annotations" (decodeMap decodeText)
      let creation ← readLast members "creationTimestamp" decodeTimestamp
      let deletionGraceSeconds ← readLast members "deletionGracePeriodSeconds" decodeLong
      let deletion ← readLast members "deletionTimestamp" decodeTimestamp
      let finalizers ← readLast members "finalizers" (decodeList decodeText)
      let generateName ← readLast members "generateName" decodeText
      let generation ← readLast members "generation" decodeLong
      let labels ← readLast members "labels" (decodeMap decodeText)
      let managers ← readLast members "managedFields" (decodeList FieldManager.decode)
      let name ← readLast members "name" decodeText
      let area ← readLast members "namespace" decodeText
      let owners ← readLast members "ownerReferences" (decodeList Owner.decode)
      let revision ← readLast members "resourceVersion" decodeText
      let selfLink ← readLast members "selfLink" decodeText
      let uid ← readLast members "uid" decodeText
      return {
        annotations, creation, deletionGraceSeconds, deletion, finalizers, generateName,
        generation, labels, managers, name, area, owners, revision, selfLink, uid }
  | other => .error (.kind other "ObjectMeta")

def encodeTexts (texts : List (String × String)) : Json :=
  .object (texts.map fun (name, value) => (name, .text value))

def encode (metadata : Metadata) : Json :=
  .object <|
    memberOf "annotations" encodeTexts metadata.annotations ++
    memberOf "creationTimestamp" (fun time => .text time.text) metadata.creation ++
    memberOf "deletionGracePeriodSeconds" .integer metadata.deletionGraceSeconds ++
    memberOf "deletionTimestamp" (fun time => .text time.text) metadata.deletion ++
    memberOf "finalizers" (fun names => .array (names.map .text)) metadata.finalizers ++
    memberOf "generateName" .text metadata.generateName ++
    memberOf "generation" .integer metadata.generation ++
    memberOf "labels" encodeTexts metadata.labels ++
    memberOf "managedFields" (fun managers => .array (managers.map FieldManager.encode))
      metadata.managers ++
    memberOf "name" .text metadata.name ++
    memberOf "namespace" .text metadata.area ++
    memberOf "ownerReferences" (fun owners => .array (owners.map Owner.encode)) metadata.owners ++
    memberOf "resourceVersion" .text metadata.revision ++
    memberOf "selfLink" .text metadata.selfLink ++
    memberOf "uid" .text metadata.uid

end Metadata

end PolicyWarden
