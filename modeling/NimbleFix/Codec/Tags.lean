import NimbleFix.Base.Bytes

/-!
# FIX tags (`codec/fix_tags.h`)

The tag numbers the engine names, the classes of session-header tags, and the session-level
message types.
-/

namespace NimbleFix

namespace Tag

def beginString : Nat := 8
def bodyLength : Nat := 9
def checkSum : Nat := 10
def msgSeqNum : Nat := 34
def msgType : Nat := 35
def possDupFlag : Nat := 43
def senderCompID : Nat := 49
def senderSubID : Nat := 50
def sendingTime : Nat := 52
def targetCompID : Nat := 56
def targetSubID : Nat := 57
def possResend : Nat := 97
def origSendingTime : Nat := 122
def defaultApplVerID : Nat := 1137
def beginSeqNo : Nat := 7
def endSeqNo : Nat := 16
def newSeqNo : Nat := 36
def refSeqNum : Nat := 45
def text : Nat := 58
def secureDataLen : Nat := 90
def secureData : Nat := 91
def rawDataLength : Nat := 95
def rawData : Nat := 96
def encryptMethod : Nat := 98
def heartBtInt : Nat := 108
def testReqID : Nat := 112
def onBehalfOfCompID : Nat := 115
def gapFillFlag : Nat := 123
def deliverToCompID : Nat := 128
def resetSeqNumFlag : Nat := 141
def refTagID : Nat := 371
def refMsgType : Nat := 372
def rejectReason : Nat := 373
def nextExpectedMsgSeqNum : Nat := 789
def username : Nat := 553
def password : Nat := 554
def applVerID : Nat := 1128

def isFrameStructureTag (tag : Nat) : Bool :=
  tag == beginString || tag == bodyLength || tag == checkSum

def isStandardSessionHeaderTag (tag : Nat) : Bool :=
  [msgSeqNum, msgType, possDupFlag, senderCompID, senderSubID, sendingTime, targetCompID,
    targetSubID, possResend, origSendingTime, applVerID, defaultApplVerID].contains tag

def isRoutingSessionHeaderTag (tag : Nat) : Bool :=
  tag == onBehalfOfCompID || tag == deliverToCompID

def isAggregateSessionHeaderTag (tag : Nat) : Bool :=
  isStandardSessionHeaderTag tag || isRoutingSessionHeaderTag tag

def isAggregateSessionEnvelopeTag (tag : Nat) : Bool :=
  isFrameStructureTag tag || isAggregateSessionHeaderTag tag

def isCommonAdminTag (tag : Nat) : Bool :=
  [beginSeqNo, endSeqNo, newSeqNo, refSeqNum, text, rawDataLength, rawData, encryptMethod,
    heartBtInt, testReqID, gapFillFlag, resetSeqNumFlag, nextExpectedMsgSeqNum, username,
    password, refTagID, refMsgType, rejectReason].contains tag

end Tag

namespace MsgType

def heartbeat : Bytes := ascii "0"
def testRequest : Bytes := ascii "1"
def resendRequest : Bytes := ascii "2"
def reject : Bytes := ascii "3"
def sequenceReset : Bytes := ascii "4"
def logout : Bytes := ascii "5"
def logon : Bytes := ascii "A"

end MsgType

end NimbleFix
