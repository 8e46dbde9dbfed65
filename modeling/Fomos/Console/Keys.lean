import Mathlib

/-!
# The keys of the console

The console reads key codes in place as its own enumeration, and turns a key into a character by
a table of keysym names, six a key: the French layout without and with shift, the English layout
without and with shift, and the two of the right Alt key.
-/
namespace Fomos

inductive Local
  | en
  | fr
  deriving DecidableEq, Repr

inductive Key
  | reserved | esc | key1 | key2 | key3 | key4 | key5 | key6 | key7 | key8 | key9 | key0
  | keyMinus | keyEqual | keyBackspace | keyTab | keyQ | keyW | keyE | keyR | keyT | keyY | keyU
  | keyI | keyO | keyP | keyLeftBrace | keyRightBrace | keyEnter | keyLeftCtrl | keyA | keyS
  | keyD | keyF | keyG | keyH | keyJ | keyK | keyL | keySemicolon | keyApostrophe | keyGrave
  | keyLeftShift | keyBackslash | keyZ | keyX | keyC | keyV | keyB | keyN | keyM | keyComma
  | keyDot | keySlash | keyRightShift | keyKpAsterisk | keyLeftAlt | keySpace | keyCapsLock
  | keyF1 | keyF2 | keyF3 | keyF4 | keyF5 | keyF6 | keyF7 | keyF8 | keyF9 | keyF10 | keyNumLock
  | keyScrollLock | keyKp7 | keyKp8 | keyKp9 | keyKpMinus | keyKp4 | keyKp5 | keyKp6 | keyKpPlus
  | keyKp1 | keyKp2 | keyKp3 | keyKp0 | keyKpDot | keyZenkakuHankaku | key102nd | keyF11 | keyF12
  | keyRo | keyKatakana | keyHiragana | keyHenkan | keyKatakanaHiragana | keyMuhenkan
  | keyKpJpComma | keyKpEnter | keyRightCtrl | keyKpSlash | keySysRq | keyRightAlt | keyLineFeed
  | keyHome | keyUp | keyPageUp | keyLeft | keyRight | keyEnd | keyDown | keyPageDown | keyInsert
  | keyDelete | keyMacro | keyMute | keyVolumeDown | keyVolumeUp | keyPower | keyKpEqual
  | keyKpPlusMinus | keyPause | keyScale | keyKpComma | keyHangeul | keyHanja | keyYen
  | keyLeftMeta | keyRightMeta | keyCompose | keyStop | keyAgain | keyProps | keyUndo | keyFront
  | keyCopy | keyOpen | keyPaste | keyFind | keyCut | keyHelp | keyMenu | keyCalc | keySetup
  | keySleep | keyWakeup | keyFile | keySend | keyDeleteFile | keyXfer | keyProg1 | keyProg2
  | keyWww | keyMsDos | keyScreenLock | keyDirection | keyCycleWindows | keyMail
  | keyBookmarks | keyComputer | keyBack | keyForward | keyCloseCd | keyEjectCd | keyEjectCloseCd
  | keyNextSong | keyPlayPause | keyPreviousSong | keyStopCd | keyRecord | keyRewind | keyPhone
  | keyIso | keyConfig | keyHomePage | keyRefresh | keyExit | keyMove | keyEdit | keyScrollUp
  | keyScrollDown | keyKpLeftParenthesis | keyKpRightParenthesis | keyNew | keyRedo | keyF13
  | keyF14 | keyF15 | keyF16 | keyF17 | keyF18 | keyF19 | keyF20 | keyF21 | keyF22 | keyF23
  | keyF24 | keyMax | btnLeft | btnRight | btnMiddle | btnSide
  deriving DecidableEq, Repr

/-- `self as usize` -/
def Key.toUsize : Key → ℕ
  | .reserved => 0 | .esc => 1 | .key1 => 2 | .key2 => 3 | .key3 => 4 | .key4 => 5 | .key5 => 6
  | .key6 => 7 | .key7 => 8 | .key8 => 9 | .key9 => 10 | .key0 => 11 | .keyMinus => 12
  | .keyEqual => 13 | .keyBackspace => 14 | .keyTab => 15 | .keyQ => 16 | .keyW => 17
  | .keyE => 18 | .keyR => 19 | .keyT => 20 | .keyY => 21 | .keyU => 22 | .keyI => 23
  | .keyO => 24 | .keyP => 25 | .keyLeftBrace => 26 | .keyRightBrace => 27 | .keyEnter => 28
  | .keyLeftCtrl => 29 | .keyA => 30 | .keyS => 31 | .keyD => 32 | .keyF => 33 | .keyG => 34
  | .keyH => 35 | .keyJ => 36 | .keyK => 37 | .keyL => 38 | .keySemicolon => 39
  | .keyApostrophe => 40 | .keyGrave => 41 | .keyLeftShift => 42 | .keyBackslash => 43
  | .keyZ => 44 | .keyX => 45 | .keyC => 46 | .keyV => 47 | .keyB => 48 | .keyN => 49
  | .keyM => 50 | .keyComma => 51 | .keyDot => 52 | .keySlash => 53 | .keyRightShift => 54
  | .keyKpAsterisk => 55 | .keyLeftAlt => 56 | .keySpace => 57 | .keyCapsLock => 58
  | .keyF1 => 59 | .keyF2 => 60 | .keyF3 => 61 | .keyF4 => 62 | .keyF5 => 63 | .keyF6 => 64
  | .keyF7 => 65 | .keyF8 => 66 | .keyF9 => 67 | .keyF10 => 68 | .keyNumLock => 69
  | .keyScrollLock => 70 | .keyKp7 => 71 | .keyKp8 => 72 | .keyKp9 => 73 | .keyKpMinus => 74
  | .keyKp4 => 75 | .keyKp5 => 76 | .keyKp6 => 77 | .keyKpPlus => 78 | .keyKp1 => 79
  | .keyKp2 => 80 | .keyKp3 => 81 | .keyKp0 => 82 | .keyKpDot => 83 | .keyZenkakuHankaku => 85
  | .key102nd => 86 | .keyF11 => 87 | .keyF12 => 88 | .keyRo => 89 | .keyKatakana => 90
  | .keyHiragana => 91 | .keyHenkan => 92 | .keyKatakanaHiragana => 93 | .keyMuhenkan => 94
  | .keyKpJpComma => 95 | .keyKpEnter => 96 | .keyRightCtrl => 97 | .keyKpSlash => 98
  | .keySysRq => 99 | .keyRightAlt => 100 | .keyLineFeed => 101 | .keyHome => 102 | .keyUp => 103
  | .keyPageUp => 104 | .keyLeft => 105 | .keyRight => 106 | .keyEnd => 107 | .keyDown => 108
  | .keyPageDown => 109 | .keyInsert => 110 | .keyDelete => 111 | .keyMacro => 112
  | .keyMute => 113 | .keyVolumeDown => 114 | .keyVolumeUp => 115 | .keyPower => 116
  | .keyKpEqual => 117 | .keyKpPlusMinus => 118 | .keyPause => 119 | .keyScale => 120
  | .keyKpComma => 121 | .keyHangeul => 122 | .keyHanja => 123 | .keyYen => 124
  | .keyLeftMeta => 125 | .keyRightMeta => 126 | .keyCompose => 127 | .keyStop => 128
  | .keyAgain => 129 | .keyProps => 130 | .keyUndo => 131 | .keyFront => 132 | .keyCopy => 133
  | .keyOpen => 134 | .keyPaste => 135 | .keyFind => 136 | .keyCut => 137 | .keyHelp => 138
  | .keyMenu => 139 | .keyCalc => 140 | .keySetup => 141 | .keySleep => 142 | .keyWakeup => 143
  | .keyFile => 144 | .keySend => 145 | .keyDeleteFile => 146 | .keyXfer => 147
  | .keyProg1 => 148 | .keyProg2 => 149 | .keyWww => 150 | .keyMsDos => 151
  | .keyScreenLock => 152 | .keyDirection => 153 | .keyCycleWindows => 154 | .keyMail => 155
  | .keyBookmarks => 156 | .keyComputer => 157 | .keyBack => 158 | .keyForward => 159
  | .keyCloseCd => 160 | .keyEjectCd => 161 | .keyEjectCloseCd => 162 | .keyNextSong => 163
  | .keyPlayPause => 164 | .keyPreviousSong => 165 | .keyStopCd => 166 | .keyRecord => 167
  | .keyRewind => 168 | .keyPhone => 169 | .keyIso => 170 | .keyConfig => 171
  | .keyHomePage => 172 | .keyRefresh => 173 | .keyExit => 174 | .keyMove => 175
  | .keyEdit => 176 | .keyScrollUp => 177 | .keyScrollDown => 178 | .keyKpLeftParenthesis => 179
  | .keyKpRightParenthesis => 180 | .keyNew => 181 | .keyRedo => 182 | .keyF13 => 183
  | .keyF14 => 184 | .keyF15 => 185 | .keyF16 => 186 | .keyF17 => 187 | .keyF18 => 188
  | .keyF19 => 189 | .keyF20 => 190 | .keyF21 => 191 | .keyF22 => 192 | .keyF23 => 193
  | .keyF24 => 194 | .keyMax => 195 | .btnLeft => 0x110 | .btnRight => 0x111
  | .btnMiddle => 0x112 | .btnSide => 0x113

def Key.all : List Key := [
  .reserved, .esc, .key1, .key2, .key3, .key4, .key5, .key6, .key7, .key8, .key9, .key0,
  .keyMinus, .keyEqual, .keyBackspace, .keyTab, .keyQ, .keyW, .keyE, .keyR, .keyT, .keyY, .keyU,
  .keyI, .keyO, .keyP, .keyLeftBrace, .keyRightBrace, .keyEnter, .keyLeftCtrl, .keyA, .keyS,
  .keyD, .keyF, .keyG, .keyH, .keyJ, .keyK, .keyL, .keySemicolon, .keyApostrophe, .keyGrave,
  .keyLeftShift, .keyBackslash, .keyZ, .keyX, .keyC, .keyV, .keyB, .keyN, .keyM, .keyComma,
  .keyDot, .keySlash, .keyRightShift, .keyKpAsterisk, .keyLeftAlt, .keySpace, .keyCapsLock,
  .keyF1, .keyF2, .keyF3, .keyF4, .keyF5, .keyF6, .keyF7, .keyF8, .keyF9, .keyF10, .keyNumLock,
  .keyScrollLock, .keyKp7, .keyKp8, .keyKp9, .keyKpMinus, .keyKp4, .keyKp5, .keyKp6, .keyKpPlus,
  .keyKp1, .keyKp2, .keyKp3, .keyKp0, .keyKpDot, .keyZenkakuHankaku, .key102nd, .keyF11, .keyF12,
  .keyRo, .keyKatakana, .keyHiragana, .keyHenkan, .keyKatakanaHiragana, .keyMuhenkan,
  .keyKpJpComma, .keyKpEnter, .keyRightCtrl, .keyKpSlash, .keySysRq, .keyRightAlt, .keyLineFeed,
  .keyHome, .keyUp, .keyPageUp, .keyLeft, .keyRight, .keyEnd, .keyDown, .keyPageDown, .keyInsert,
  .keyDelete, .keyMacro, .keyMute, .keyVolumeDown, .keyVolumeUp, .keyPower, .keyKpEqual,
  .keyKpPlusMinus, .keyPause, .keyScale, .keyKpComma, .keyHangeul, .keyHanja, .keyYen,
  .keyLeftMeta, .keyRightMeta, .keyCompose, .keyStop, .keyAgain, .keyProps, .keyUndo, .keyFront,
  .keyCopy, .keyOpen, .keyPaste, .keyFind, .keyCut, .keyHelp, .keyMenu, .keyCalc, .keySetup,
  .keySleep, .keyWakeup, .keyFile, .keySend, .keyDeleteFile, .keyXfer, .keyProg1, .keyProg2,
  .keyWww, .keyMsDos, .keyScreenLock, .keyDirection, .keyCycleWindows, .keyMail,
  .keyBookmarks, .keyComputer, .keyBack, .keyForward, .keyCloseCd, .keyEjectCd, .keyEjectCloseCd,
  .keyNextSong, .keyPlayPause, .keyPreviousSong, .keyStopCd, .keyRecord, .keyRewind, .keyPhone,
  .keyIso, .keyConfig, .keyHomePage, .keyRefresh, .keyExit, .keyMove, .keyEdit, .keyScrollUp,
  .keyScrollDown, .keyKpLeftParenthesis, .keyKpRightParenthesis, .keyNew, .keyRedo, .keyF13,
  .keyF14, .keyF15, .keyF16, .keyF17, .keyF18, .keyF19, .keyF20, .keyF21, .keyF22, .keyF23,
  .keyF24, .keyMax, .btnLeft, .btnRight, .btnMiddle, .btnSide]

/-- The rows of the keys' keysyms, by key code. -/
def xmap : List (List String) := [
  ["", "", "", "", "", ""],
  ["Escape", "NoSymbol", "Escape", "", "", ""],
  ["ampersand", "1", "1", "exclam", "onesuperior", "exclamdown"],
  ["eacute", "2", "2", "at", "asciitilde", "oneeighth"],
  ["quotedbl", "3", "3", "numbersign", "numbersign", "sterling"],
  ["apostrophe", "4", "4", "dollar", "braceleft", "dollar"],
  ["parenleft", "5", "5", "percent", "bracketleft", "threeeighths"],
  ["minus", "6", "6", "asciicircum", "bar", "fiveeighths"],
  ["egrave", "7", "7", "ampersand", "grave", "seveneighths"],
  ["underscore", "8", "8", "asterisk", "backslash", "trademark"],
  ["ccedilla", "9", "9", "parenleft", "asciicircum", "plusminus"],
  ["agrave", "0", "0", "parenright", "at", "degree"],
  ["parenright", "degree", "minus", "underscore", "bracketright", "questiondown"],
  ["equal", "plus", "equal", "plus", "braceright", "dead_ogonek"],
  ["BackSpace", "BackSpace", "BackSpace", "BackSpace", "", ""],
  ["Tab", "ISO_Left_Tab", "Tab", "ISO_Left_Tab", "", ""],
  ["a", "A", "q", "Q", "ae", "AE"],
  ["z", "Z", "w", "W", "guillemotleft", "less"],
  ["e", "E", "e", "E", "EuroSign", "cent"],
  ["r", "R", "r", "R", "paragraph", "registered"],
  ["t", "T", "t", "T", "tslash", "Tslash"],
  ["y", "Y", "y", "Y", "leftarrow", "yen"],
  ["u", "U", "u", "U", "downarrow", "uparrow"],
  ["i", "I", "i", "I", "rightarrow", "idotless"],
  ["o", "O", "o", "O", "oslash", "Oslash"],
  ["p", "P", "p", "P", "thorn", "THORN"],
  ["dead_circumflex", "dead_diaeresis", "bracketleft",
    "braceleft", "dead_diaeresis", "dead_abovering"],
  ["dollar", "sterling", "bracketright", "braceright", "currency", "dead_macron"],
  ["Return", "NoSymbol", "Return", "", "", ""],
  ["Control_L", "NoSymbol", "Control_L", "", "", ""],
  ["q", "Q", "a", "A", "at", "Greek_OMEGA"],
  ["s", "S", "s", "S", "ssharp", "section"],
  ["d", "D", "d", "D", "eth", "ETH"],
  ["f", "F", "f", "F", "dstroke", "ordfeminine"],
  ["g", "G", "g", "G", "eng", "ENG"],
  ["h", "H", "h", "H", "hstroke", "Hstroke"],
  ["j", "J", "j", "J", "dead_hook", "dead_horn"],
  ["k", "K", "k", "K", "kra", "ampersand"],
  ["l", "L", "l", "L", "lstroke", "Lstroke"],
  ["m", "M", "semicolon", "colon", "mu", "masculine"],
  ["ugrave", "percent", "apostrophe", "quotedbl", "dead_circumflex", "dead_caron"],
  ["twosuperior", "asciitilde", "grave", "asciitilde", "notsign", "notsign"],
  ["Shift_L", "NoSymbol", "Shift_L", "", "", ""],
  ["asterisk", "mu", "backslash", "bar", "dead_grave", "dead_breve"],
  ["w", "W", "z", "Z", "lstroke", "Lstroke"],
  ["x", "X", "x", "X", "guillemotright", "greater"],
  ["c", "C", "c", "C", "cent", "copyright"],
  ["v", "V", "v", "V", "leftdoublequotemark", "leftsinglequotemark"],
  ["b", "B", "b", "B", "rightdoublequotemark", "rightsinglequotemark"],
  ["n", "N", "n", "N", "n", "N"],
  ["comma", "question", "m", "M", "dead_acute", "dead_doubleacute"],
  ["semicolon", "period", "comma", "less", "horizconnector", "multiply"],
  ["colon", "slash", "period", "greater", "periodcentered", "division"],
  ["exclam", "section", "slash", "question", "dead_belowdot", "dead_abovedot"],
  ["Shift_R", "NoSymbol", "Shift_R", "", "", ""],
  ["KP_Multiply", "KP_Multiply", "KP_Multiply", "KP_Multiply", "KP_Multiply", "KP_Multiply"],
  ["Alt_L", "Meta_L", "Alt_L", "Meta_L", "", ""],
  ["space", "NoSymbol", "space", "", "", ""],
  ["Caps_Lock", "NoSymbol", "Caps_Lock", "", "", ""],
  ["F1", "F1", "F1", "F1", "F1", "F1"],
  ["F2", "F2", "F2", "F2", "F2", "F2"],
  ["F3", "F3", "F3", "F3", "F3", "F3"],
  ["F4", "F4", "F4", "F4", "F4", "F4"],
  ["F5", "F5", "F5", "F5", "F5", "F5"],
  ["F6", "F6", "F6", "F6", "F6", "F6"],
  ["F7", "F7", "F7", "F7", "F7", "F7"],
  ["F8", "F8", "F8", "F8", "F8", "F8"],
  ["F9", "F9", "F9", "F9", "F9", "F9"],
  ["F10", "F10", "F10", "F10", "F10", "F10"],
  ["Num_Lock", "NoSymbol", "Num_Lock", "", "", ""],
  ["Scroll_Lock", "NoSymbol", "Scroll_Lock", "", "", ""],
  ["KP_Home", "KP_7", "KP_Home", "KP_7", "", ""],
  ["KP_Up", "KP_8", "KP_Up", "KP_8", "", ""],
  ["KP_Prior", "KP_9", "KP_Prior", "KP_9", "", ""],
  ["KP_Subtract", "KP_Subtract", "KP_Subtract", "KP_Subtract", "KP_Subtract", "KP_Subtract"],
  ["KP_Left", "KP_4", "KP_Left", "KP_4", "", ""],
  ["KP_Begin", "KP_5", "KP_Begin", "KP_5", "", ""],
  ["KP_Right", "KP_6", "KP_Right", "KP_6", "", ""],
  ["KP_Add", "KP_Add", "KP_Add", "KP_Add", "KP_Add", "KP_Add"],
  ["KP_End", "KP_1", "KP_End", "KP_1", "", ""],
  ["KP_Down", "KP_2", "KP_Down", "KP_2", "", ""],
  ["KP_Next", "KP_3", "KP_Next", "KP_3", "", ""],
  ["KP_Insert", "KP_0", "KP_Insert", "KP_0", "", ""],
  ["KP_Delete", "KP_Decimal", "KP_Delete", "KP_Decimal", "", ""],
  ["ISO_Level3_Shift", "NoSymbol", "ISO_Level3_Shift", "", "", ""],
  ["", "", "", "", "", ""],
  ["less", "greater", "less", "greater", "bar", "brokenbar"],
  ["F11", "F11", "F11", "F11", "F11", "F11"],
  ["F12", "F12", "F12", "F12", "F12", "F12"],
  ["", "", "", "", "", ""],
  ["Katakana", "NoSymbol", "Katakana", "", "", ""],
  ["Hiragana", "NoSymbol", "Hiragana", "", "", ""],
  ["Henkan_Mode", "NoSymbol", "Henkan_Mode", "", "", ""],
  ["Hiragana_Katakana", "NoSymbol", "Hiragana_Katakana", "", "", ""],
  ["Muhenkan", "NoSymbol", "Muhenkan", "", "", ""],
  ["", "", "", "", "", ""],
  ["KP_Enter", "NoSymbol", "KP_Enter", "", "", ""],
  ["Control_R", "NoSymbol", "Control_R", "", "", ""],
  ["KP_Divide", "KP_Divide", "KP_Divide", "KP_Divide", "KP_Divide", "KP_Divide"],
  ["Print", "Sys_Req", "Print", "Sys_Req", "", ""],
  ["ISO_Level3_Shift", "NoSymbol", "ISO_Level3_Shift", "", "", ""],
  ["Linefeed", "NoSymbol", "Linefeed", "", "", ""],
  ["Home", "NoSymbol", "Home", "", "", ""],
  ["Up", "NoSymbol", "Up", "", "", ""],
  ["Prior", "NoSymbol", "Prior", "", "", ""],
  ["Left", "NoSymbol", "Left", "", "", ""],
  ["Right", "NoSymbol", "Right", "", "", ""],
  ["End", "NoSymbol", "End", "", "", ""],
  ["Down", "NoSymbol", "Down", "", "", ""],
  ["Next", "NoSymbol", "Next", "", "", ""],
  ["Insert", "NoSymbol", "Insert", "", "", ""],
  ["Delete", "NoSymbol", "Delete", "", "", ""],
  ["", "", "", "", "", ""],
  ["XF86AudioMute", "NoSymbol", "XF86AudioMute", "", "", ""],
  ["XF86AudioLowerVolume", "NoSymbol", "XF86AudioLowerVolume", "", "", ""],
  ["XF86AudioRaiseVolume", "NoSymbol", "XF86AudioRaiseVolume", "", "", ""],
  ["XF86PowerOff", "NoSymbol", "XF86PowerOff", "", "", ""],
  ["KP_Equal", "NoSymbol", "KP_Equal", "", "", ""],
  ["plusminus", "NoSymbol", "plusminus", "", "", ""],
  ["Pause", "Break", "Pause", "Break", "", ""],
  ["XF86LaunchA", "NoSymbol", "XF86LaunchA", "", "", ""],
  ["KP_Decimal", "KP_Decimal", "KP_Decimal", "KP_Decimal", "", ""],
  ["Hangul", "NoSymbol", "Hangul", "", "", ""],
  ["Hangul_Hanja", "NoSymbol", "Hangul_Hanja", "", "", ""],
  ["", "", "", "", "", ""],
  ["Super_L", "NoSymbol", "Super_L", "", "", ""],
  ["Super_R", "NoSymbol", "Super_R", "", "", ""],
  ["Menu", "NoSymbol", "Menu", "", "", ""],
  ["Cancel", "NoSymbol", "Cancel", "", "", ""],
  ["Redo", "NoSymbol", "Redo", "", "", ""],
  ["SunProps", "NoSymbol", "SunProps", "", "", ""],
  ["Undo", "NoSymbol", "Undo", "", "", ""],
  ["SunFront", "NoSymbol", "SunFront", "", "", ""],
  ["XF86Copy", "NoSymbol", "XF86Copy", "", "", ""],
  ["XF86Open", "NoSymbol", "XF86Open", "", "", ""],
  ["XF86Paste", "NoSymbol", "XF86Paste", "", "", ""],
  ["Find", "NoSymbol", "Find", "", "", ""],
  ["XF86Cut", "NoSymbol", "XF86Cut", "", "", ""],
  ["Help", "NoSymbol", "Help", "", "", ""],
  ["XF86MenuKB", "NoSymbol", "XF86MenuKB", "", "", ""],
  ["XF86Calculator", "NoSymbol", "XF86Calculator", "", "", ""],
  ["", "", "", "", "", ""],
  ["XF86Sleep", "NoSymbol", "XF86Sleep", "", "", ""],
  ["XF86WakeUp", "NoSymbol", "XF86WakeUp", "", "", ""],
  ["XF86Explorer", "NoSymbol", "XF86Explorer", "", "", ""],
  ["XF86Send", "NoSymbol", "XF86Send", "", "", ""],
  ["", "", "", "", "", ""],
  ["XF86Xfer", "NoSymbol", "XF86Xfer", "", "", ""],
  ["XF86Launch1", "NoSymbol", "XF86Launch1", "", "", ""],
  ["XF86Launch2", "NoSymbol", "XF86Launch2", "", "", ""],
  ["XF86WWW", "NoSymbol", "XF86WWW", "", "", ""],
  ["XF86DOS", "NoSymbol", "XF86DOS", "", "", ""],
  ["XF86ScreenSaver", "NoSymbol", "XF86ScreenSaver", "", "", ""],
  ["XF86RotateWindows", "NoSymbol", "XF86RotateWindows", "", "", ""],
  ["XF86TaskPane", "NoSymbol", "XF86TaskPane", "", "", ""],
  ["XF86Mail", "NoSymbol", "XF86Mail", "", "", ""],
  ["XF86Favorites", "NoSymbol", "XF86Favorites", "", "", ""],
  ["XF86MyComputer", "NoSymbol", "XF86MyComputer", "", "", ""],
  ["XF86Back", "NoSymbol", "XF86Back", "", "", ""],
  ["XF86Forward", "NoSymbol", "XF86Forward", "", "", ""],
  ["", "", "", "", "", ""],
  ["XF86Eject", "NoSymbol", "XF86Eject", "", "", ""],
  ["XF86Eject", "XF86Eject", "XF86Eject", "XF86Eject", "", ""],
  ["XF86AudioNext", "NoSymbol", "XF86AudioNext", "", "", ""],
  ["XF86AudioPlay", "XF86AudioPause", "XF86AudioPlay", "XF86AudioPause", "", ""],
  ["XF86AudioPrev", "NoSymbol", "XF86AudioPrev", "", "", ""],
  ["XF86AudioStop", "XF86Eject", "XF86AudioStop", "XF86Eject", "", ""],
  ["XF86AudioRecord", "NoSymbol", "XF86AudioRecord", "", "", ""],
  ["XF86AudioRewind", "NoSymbol", "XF86AudioRewind", "", "", ""],
  ["XF86Phone", "NoSymbol", "XF86Phone", "", "", ""],
  ["", "", "", "", "", ""],
  ["XF86Tools", "NoSymbol", "XF86Tools", "", "", ""],
  ["XF86HomePage", "NoSymbol", "XF86HomePage", "", "", ""],
  ["XF86Reload", "NoSymbol", "XF86Reload", "", "", ""],
  ["XF86Close", "NoSymbol", "XF86Close", "", "", ""],
  ["", "", "", "", "", ""],
  ["", "", "", "", "", ""],
  ["XF86ScrollUp", "NoSymbol", "XF86ScrollUp", "", "", ""],
  ["XF86ScrollDown", "NoSymbol", "XF86ScrollDown", "", "", ""],
  ["parenleft", "NoSymbol", "parenleft", "", "", ""],
  ["parenright", "NoSymbol", "parenright", "", "", ""],
  ["XF86New", "NoSymbol", "XF86New", "", "", ""],
  ["Redo", "NoSymbol", "Redo", "", "", ""],
  ["XF86Tools", "NoSymbol", "XF86Tools", "", "", ""],
  ["XF86Launch5", "NoSymbol", "XF86Launch5", "", "", ""],
  ["XF86Launch6", "NoSymbol", "XF86Launch6", "", "", ""],
  ["XF86Launch7", "NoSymbol", "XF86Launch7", "", "", ""],
  ["XF86Launch8", "NoSymbol", "XF86Launch8", "", "", ""],
  ["XF86Launch9", "NoSymbol", "XF86Launch9", "", "", ""],
  ["", "", "", "", "", ""],
  ["XF86AudioMicMute", "NoSymbol", "XF86AudioMicMute", "", "", ""],
  ["XF86TouchpadToggle", "NoSymbol", "XF86TouchpadToggle", "", "", ""],
  ["XF86TouchpadOn", "NoSymbol", "XF86TouchpadOn", "", "", ""],
  ["XF86TouchpadOff", "NoSymbol", "XF86TouchpadOff", "", "", ""],
  ["", "", "", "", "", ""],
  ["Mode_switch", "NoSymbol", "Mode_switch", "", "", ""],
  ["NoSymbol", "Alt_L", "NoSymbol", "Alt_L", "", ""],
  ["NoSymbol", "Meta_L", "NoSymbol", "Meta_L", "", ""],
  ["NoSymbol", "Super_L", "NoSymbol", "Super_L", "", ""],
  ["NoSymbol", "Hyper_L", "NoSymbol", "Hyper_L", "", ""],
  ["XF86AudioPlay", "NoSymbol", "XF86AudioPlay", "", "", ""],
  ["XF86AudioPause", "NoSymbol", "XF86AudioPause", "", "", ""],
  ["XF86Launch3", "NoSymbol", "XF86Launch3", "", "", ""],
  ["XF86Launch4", "NoSymbol", "XF86Launch4", "", "", ""],
  ["XF86LaunchB", "NoSymbol", "XF86LaunchB", "", "", ""],
  ["XF86Suspend", "NoSymbol", "XF86Suspend", "", "", ""],
  ["XF86Close", "NoSymbol", "XF86Close", "", "", ""],
  ["XF86AudioPlay", "NoSymbol", "XF86AudioPlay", "", "", ""],
  ["XF86AudioForward", "NoSymbol", "XF86AudioForward", "", "", ""],
  ["", "", "", "", "", ""],
  ["Print", "NoSymbol", "Print", "", "", ""],
  ["", "", "", "", "", ""],
  ["XF86WebCam", "NoSymbol", "XF86WebCam", "", "", ""],
  ["XF86AudioPreset", "NoSymbol", "XF86AudioPreset", "", "", ""],
  ["", "", "", "", "", ""],
  ["XF86Mail", "NoSymbol", "XF86Mail", "", "", ""],
  ["XF86Messenger", "NoSymbol", "XF86Messenger", "", "", ""],
  ["XF86Search", "NoSymbol", "XF86Search", "", "", ""],
  ["XF86Go", "NoSymbol", "XF86Go", "", "", ""],
  ["XF86Finance", "NoSymbol", "XF86Finance", "", "", ""],
  ["XF86Game", "NoSymbol", "XF86Game", "", "", ""],
  ["XF86Shop", "NoSymbol", "XF86Shop", "", "", ""],
  ["", "", "", "", "", ""],
  ["Cancel", "NoSymbol", "Cancel", "", "", ""],
  ["XF86MonBrightnessDown", "NoSymbol", "XF86MonBrightnessDown", "", "", ""],
  ["XF86MonBrightnessUp", "NoSymbol", "XF86MonBrightnessUp", "", "", ""],
  ["XF86AudioMedia", "NoSymbol", "XF86AudioMedia", "", "", ""],
  ["XF86Display", "NoSymbol", "XF86Display", "", "", ""],
  ["XF86KbdLightOnOff", "NoSymbol", "XF86KbdLightOnOff", "", "", ""],
  ["XF86KbdBrightnessDown", "NoSymbol", "XF86KbdBrightnessDown", "", "", ""],
  ["XF86KbdBrightnessUp", "NoSymbol", "XF86KbdBrightnessUp", "", "", ""],
  ["XF86Send", "NoSymbol", "XF86Send", "", "", ""],
  ["XF86Reply", "NoSymbol", "XF86Reply", "", "", ""],
  ["XF86MailForward", "NoSymbol", "XF86MailForward", "", "", ""],
  ["XF86Save", "NoSymbol", "XF86Save", "", "", ""],
  ["XF86Documents", "NoSymbol", "XF86Documents", "", "", ""],
  ["XF86Battery", "NoSymbol", "XF86Battery", "", "", ""],
  ["XF86Bluetooth", "NoSymbol", "XF86Bluetooth", "", "", ""],
  ["XF86WLAN", "NoSymbol", "XF86WLAN", "", "", ""],
  ["", "", "", "", "", ""],
  ["", "", "", "", "", ""],
  ["", "", "", "", "", ""],
  ["", "", "", "", "", ""],
  ["XF86MonBrightnessCycle", "NoSymbol", "XF86MonBrightnessCycle", "", "", ""],
  ["", "", "", "", "", ""],
  ["", "", "", "", "", ""],
  ["XF86WWAN", "NoSymbol", "XF86WWAN", "", "", ""],
  ["XF86RFKill", "NoSymbol", "XF86RFKill", "", "", ""],
  ["", "", "", "", "", ""],
  ["", "", "", "", "", ""],
  ["", "", "", "", "", ""],
  ["", "", "", "", "", ""],
  ["", "", "", "", "", ""],
  ["", "", "", "", "", ""],
  ["", "", "", "", "", ""]]

def getxmap (loc : Local) (code : ℕ) (shift altg : Bool) : String :=
  let column := if altg then 4 else
    (if shift then 1 else 0) + match loc with
      | .en => 2
      | .fr => 0
  (xmap.getD code []).getD column ""

/-- The character that a keysym stands for. -/
def keysymChar (s : String) : Option Char :=
  if s.utf8ByteSize = 1 then s.toList.head?
  else
    match s with
    | "minus" => some '-'
    | "plus" => some '+'
    | "equal" => some '='
    | "space" => some ' '
    | "bracketleft" => some '['
    | "bracketright" => some ']'
    | "braceleft" => some '\x7b'
    | "braceright" => some '\x7d'
    | "parenleft" => some '('
    | "parenright" => some ')'
    | "less" => some '<'
    | "greater" => some '>'
    | "comma" => some ','
    | "asterisk" => some '*'
    | "slash" => some '/'
    | "colon" => some ':'
    | "percent" => some '%'
    | "semicolon" => some ';'
    | "question" => some '?'
    | "quotedbl" => some '\x22'
    | "apostrophe" => some '\x27'
    | "twosuperior" => some '²'
    | "exclam" => some '!'
    | _ => none

namespace Key

def char (key : Key) (loc : Local) (shift altg : Bool) : Option Char :=
  if 255 ≤ key.toUsize then none else keysymChar (getxmap loc key.toUsize shift altg)

/-- A value that is one of the enumeration. -/
def IsDiscriminant (n : ℕ) : Prop := ∃ key : Key, key.toUsize = n

lemma getElem?_all (key : Key) : all[key.ctorIdx]? = some key := by
  cases key <;> rfl

lemma mem_all (key : Key) : key ∈ all := List.mem_of_getElem? key.getElem?_all

lemma toUsize_range (key : Key) : (key.toUsize ≤ 195 ∧ key.toUsize ≠ 84) ∨
    (272 ≤ key.toUsize ∧ key.toUsize ≤ 275) := by
  have hall : ∀ key ∈ all, (key.toUsize ≤ 195 ∧ key.toUsize ≠ 84) ∨
      (272 ≤ key.toUsize ∧ key.toUsize ≤ 275) := by
    decide +kernel
  exact hall key key.mem_all

/-- The enumeration has two holes: 84, and what is between `KeyMax` and `BtnLeft`. -/
lemma isDiscriminant_iff (n : ℕ) :
    IsDiscriminant n ↔ (n ≤ 195 ∧ n ≠ 84) ∨ (272 ≤ n ∧ n ≤ 275) := by
  constructor
  · rintro ⟨key, rfl⟩
    exact key.toUsize_range
  · have hall : ∀ n < 276, (n ≤ 195 ∧ n ≠ 84) ∨ (272 ≤ n ∧ n ≤ 275) →
        ∃ key ∈ all, key.toUsize = n := by
      decide +kernel
    intro h
    obtain ⟨key, -, hkey⟩ := hall n (by omega) h
    exact ⟨key, hkey⟩

end Key
end Fomos
