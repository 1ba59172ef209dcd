/-!
The catalogue of the language: its built-in functions, the functions of the standard libraries, its
macros and its keywords.
-/

namespace AutoItServer

/-- A function of the catalogue. A function of a standard library names that library. The label is
given where some parameters are optional; otherwise it lists the parameters. -/
structure BuiltIn where
  name : String
  doc : String
  params : List (String × String) := []
  library : Option String := none
  label : Option String := none
deriving Repr

namespace Catalogue

/-- The functions. -/
def functions : List BuiltIn := [
  { name := "Abs"
    doc := "Calculates the absolute value of a number."
    params := [("$expression", "Any valid numeric expression.")] },
  { name := "ConsoleWrite"
    doc := "Writes data to the STDOUT stream."
    params := [("$data", "The data to be written.")] },
  { name := "ConsoleWriteError"
    doc := "Writes data to the STDERR stream."
    params := [("$data", "The data to be written.")] },
  { name := "DirCreate"
    doc := "Creates a directory/folder."
    params := [("$path", "Path of the directory to create.")] },
  { name := "DllCall"
    doc := "Dynamically calls a function in a DLL."
    params := [("$dll", "The filename of the DLL to use, or a handle from DllOpen()."),
      ("$return_type", "The return type of the function."),
      ("$function", "The name, eg \"MessageBox\", or ordinal value of the function."),
      ("$type1", "[optional] The type of the parameter."),
      ("$param1", "[optional] The actual parameter.")]
    label := some "DllCall($dll, $return_type, $function[, $type1, $param1[, ...]])" },
  { name := "Exit"
    doc := "Terminates the script."
    params := [("$return_code",
      "[optional] Integer that sets the script's return code. Default is 0.")]
    label := some "Exit([$return_code = 0])" },
  { name := "FileClose"
    doc := "Closes a previously opened file."
    params := [("$filehandle",
      "The handle of a file, as returned by a previous call to FileOpen().")] },
  { name := "FileExists"
    doc := "Checks if a file or directory exists."
    params := [("$path", "The directory or file to check.")] },
  { name := "FileOpen"
    doc := "Opens a file for reading or writing."
    params := [("$filename", "Filename of the file to open."),
      ("$mode", "[optional] Mode to open the file in. Default is $FO_READ (0).")]
    label := some "FileOpen($filename[, $mode = 0])" },
  { name := "FileRead"
    doc := "Reads in a number of characters from a previously opened file."
    params := [("$filehandle", "The handle of a file, as returned by FileOpen(), or a filename."),
      ("$count", "[optional] The number of characters to read. Default reads the whole file.")]
    label := some "FileRead($filehandle[, $count])" },
  { name := "FileReadLine"
    doc := "Reads in a line of text from a previously opened text file."
    params := [("$filehandle", "The handle of a file, as returned by FileOpen(), or a filename."),
      ("$line", "[optional] The line number to read. Default is 1.")]
    label := some "FileReadLine($filehandle[, $line = 1])" },
  { name := "FileWrite"
    doc := "Append a text/data to the end of a previously opened file."
    params := [("$filehandle", "The handle of a file, as returned by FileOpen(), or a filename."),
      ("$text", "The text/data to write to the file.")] },
  { name := "FileWriteLine"
    doc := "Append a line of text to the end of a previously opened text file."
    params := [("$filehandle", "The handle of a file, as returned by FileOpen(), or a filename."),
      ("$line", "The line of text to write to the text file.")] },
  { name := "GUICreate"
    doc := "Create a GUI window."
    params := [("$title", "The title of the dialog box."),
      ("$width", "[optional] The width of the window."),
      ("$height", "[optional] The height of the window."),
      ("$left", "[optional] The left side of the dialog box. Default (-1) centers it."),
      ("$top", "[optional] The top of the dialog box. Default (-1) centers it."),
      ("$style", "[optional] Defines the style of the window."),
      ("$exStyle", "[optional] Defines the extended style of the window."),
      ("$parent", "[optional] The handle of another previously created window.")]
    label := some ("GUICreate($title[, $width[, $height[, $left = -1[, $top = -1[, " ++
      "$style = -1[, $exStyle = -1[, $parent = 0]]]]]]])") },
  { name := "GUICtrlCreateButton"
    doc := "Creates a Button control for the GUI."
    params := [("$text", "The text of the button control."),
      ("$left", "The left side of the control."),
      ("$top", "The top of the control."),
      ("$width", "[optional] The width of the control."),
      ("$height", "[optional] The height of the control."),
      ("$style", "[optional] Defines the style of the control."),
      ("$exStyle", "[optional] Defines the extended style of the control.")]
    label := some ("GUICtrlCreateButton($text, $left, $top[, $width[, $height[, $style = -1[, " ++
      "$exStyle = -1]]]])") },
  { name := "GUICtrlSetData"
    doc := "Modifies the data for a control."
    params := [("$controlID", "The control identifier (controlID) as returned by a " ++
      "GUICtrlCreate...() function, or -1 for the last created control."),
      ("$data", "Combo, List, ListView, ListViewItem: an Opt(\"GUIDataSeparatorChar\") " ++
        "separated list of items."),
      ("$default", "[optional] Combo, List: the default value.")]
    label := some "GUICtrlSetData($controlID, $data[, $default])" },
  { name := "GUIGetMsg"
    doc := "Polls the GUI to see if any events have occurred."
    params := [("$advanced", "[optional] Return extended information in an array. Default is 0.")]
    label := some "GUIGetMsg([$advanced = 0])" },
  { name := "GUISetState"
    doc := "Changes the state of a GUI window."
    params := [("$flag", "[optional] Default is @SW_SHOW."),
      ("$winhandle", "[optional] Windows handle as returned by GUICreate(). Default is the " ++
        "previously used window.")]
    label := some "GUISetState([$flag = @SW_SHOW[, $winhandle]])" },
  { name := "InputBox"
    doc := "Displays an input box to ask the user to enter a string."
    params := [("$title", "The title of the input box."),
      ("$prompt", "A message to the user indicating what kind of input is expected."),
      ("$default", "[optional] The value that the input box starts with."),
      ("$password_char", "[optional] The character to replace all typed characters with.")]
    label := some "InputBox($title, $prompt[, $default = \"\"[, $password_char = \"\"]])" },
  { name := "IsArray"
    doc := "Checks if a variable is an array type."
    params := [("$variable", "The variable/expression to check.")] },
  { name := "MsgBox"
    doc := "Displays a simple message box with optional timeout."
    params := [("$flag",
      "The flag indicates the type of message box and the possible button combinations."),
      ("$title", "The title of the message box."),
      ("$text", "The text of the message box."),
      ("$timeout", "[optional] Timeout in seconds. After the timeout has elapsed the message " ++
        "box will close automatically."),
      ("$hwnd", "[optional] The window handle to use as the parent for this dialog.")]
    label := some "MsgBox($flag, $title, $text[, $timeout = 0[, $hwnd = 0]])" },
  { name := "Number"
    doc := "Returns the numeric representation of an expression."
    params := [("$expression", "An expression to convert into a number."),
      ("$flag", "[optional] Defines the type of number returned.")]
    label := some "Number($expression[, $flag = 0])" },
  { name := "Random"
    doc := "Generates a pseudo-random float-type number."
    params := [("$min", "[optional] The smallest number to be generated. Default is 0."),
      ("$max", "[optional] The largest number to be generated. Default is 1."),
      ("$flag", "[optional] If this is set to 1 then an integer result will be returned.")]
    label := some "Random([$min = 0[, $max = 1[, $flag = 0]]])" },
  { name := "Run"
    doc := "Runs an external program."
    params := [("$program", "The full path of the program (EXE, BAT, COM, or PIF) to run."),
      ("$workingdir", "[optional] The working directory."),
      ("$show_flag", "[optional] The \"show\" flag of the executed program."),
      ("$opt_flag", "[optional] Controls various options related to how the parent and child " ++
        "process interact.")]
    label := some "Run($program[, $workingdir = \"\"[, $show_flag[, $opt_flag]]])" },
  { name := "Send"
    doc := "Sends simulated keystrokes to the active window."
    params := [("$keys", "The sequence of keys to send."),
      ("$flag", "[optional] Changes how \"keys\" is processed. Default is 0.")]
    label := some "Send($keys[, $flag = 0])" },
  { name := "SetError"
    doc := "Manually set the value of the @error macro (and optionally @extended, and \"Return " ++
      "Value\")."
    params := [("$code", "The required value (integer) to set the @error macro to."),
      ("$extended", "[optional] The optional value (integer) to set the @extended macro to."),
      ("$return_value", "[optional] Override the default return value and return this parameter.")]
    label := some "SetError($code[, $extended = 0[, $return_value = 1]])" },
  { name := "Sleep"
    doc := "Pause script execution."
    params := [("$delay", "Amount of time to pause (in milliseconds).")] },
  { name := "StringFormat"
    doc := "Returns a formatted string (similar to the C sprintf() function)."
    params := [("$format", "Format and Flags to use."),
      ("$var1", "Variables that will be output according to the \"Format Control\".")]
    label := some "StringFormat($format, $var1[, ... $var32])" },
  { name := "StringInStr"
    doc := "Checks if a string contains a given substring."
    params := [("$string", "The string to evaluate."),
      ("$substring", "The substring to search for."),
      ("$casesense", "[optional] Flag to indicate if the operations should be case sensitive."),
      ("$occurrence", "[optional] Which occurrence of the substring to find in the string."),
      ("$start", "[optional] The starting position of the search."),
      ("$count", "[optional] The number of characters to search.")]
    label := some ("StringInStr($string, $substring[, $casesense = 0[, $occurrence = 1[, " ++
      "$start = 1[, $count]]]])") },
  { name := "StringLeft"
    doc := "Returns a number of characters from the left-hand side of a string."
    params := [("$string", "The string to evaluate."),
      ("$count", "The number of characters to get.")] },
  { name := "StringLen"
    doc := "Returns the number of characters in a string."
    params := [("$string", "The string to evaluate.")] },
  { name := "StringMid"
    doc := "Extracts a number of characters from a string."
    params := [("$string", "The string to evaluate."),
      ("$start", "The character position to start."),
      ("$count", "[optional] The number of characters to extract. Default (-1) extracts the rest.")]
    label := some "StringMid($string, $start[, $count = -1])" },
  { name := "StringRegExp"
    doc := "Check if a string fits a given regular expression pattern."
    params := [("$test", "The subject string to check."),
      ("$pattern", "The regular expression to compare."),
      ("$flag", "[optional] A number to indicate how the function behaves."),
      ("$offset", "[optional] The string position to start the match (starts at 1).")]
    label := some "StringRegExp($test, $pattern[, $flag = 0[, $offset = 1]])" },
  { name := "StringRegExpReplace"
    doc := "Replace text in a string based on regular expressions."
    params := [("$test", "The string to check."),
      ("$pattern", "The regular expression to compare."),
      ("$replace", "The text to replace the regular expression matching text with."),
      ("$count", "[optional] The number of times to execute the replacement in the string.")]
    label := some "StringRegExpReplace($test, $pattern, $replace[, $count = 0])" },
  { name := "StringReplace"
    doc := "Replaces substrings in a string."
    params := [("$string", "The string to evaluate."),
      ("$searchstring",
        "The substring to search for or the character position to start the replacement."),
      ("$replacestring", "The replacement string."),
      ("$occurrence", "[optional] The number of times to replace the searchstring."),
      ("$casesense", "[optional] Flag to indicate if the operations should be case sensitive.")]
    label := some ("StringReplace($string, $searchstring, $replacestring[, $occurrence = 0[, " ++
      "$casesense = 0]])") },
  { name := "StringSplit"
    doc := "Splits up a string into substrings depending on the given delimiters."
    params := [("$string", "The string to evaluate."),
      ("$delimiters", "One or more characters to use as delimiters (case sensitive)."),
      ("$flag", "[optional] Changes how the string split works.")]
    label := some "StringSplit($string, $delimiters[, $flag = 0])" },
  { name := "StringTrimLeft"
    doc := "Trims a number of characters from the left hand side of a string."
    params := [("$string", "The string to evaluate."),
      ("$count", "The number of characters to trim.")] },
  { name := "TrayTip"
    doc := "Displays a balloon tip from the AutoIt Icon."
    params := [("$title", "Text appears in bold at the top of the balloon tip."),
      ("$text", "Message that the balloon tip will display."),
      ("$timeout", "[optional] A rough estimate of the time (in seconds) the balloon tip should " ++
        "be displayed."),
      ("$option", "[optional] Sets different options for how the balloon tip will be displayed.")]
    label := some "TrayTip($title, $text[, $timeout = 0[, $option = 0]])" },
  { name := "UBound"
    doc := "Returns the size of array dimensions or the number of keys in a map."
    params := [("$array", "An array or map variable."),
      ("$dimension", "[optional] Which dimension of a multi-dimensioned array to report the " ++
        "size of. Default is 1.")]
    label := some "UBound($array[, $dimension = 1])" },
  { name := "WinActivate"
    doc := "Activates (gives focus to) a window."
    params := [("$title", "The title/hWnd/class of the window to activate."),
      ("$text", "[optional] The text of the window to activate.")]
    label := some "WinActivate($title[, $text = \"\"])" },
  { name := "WinWaitActive"
    doc := "Pauses execution of the script until the requested window is active."
    params := [("$title", "The title/hWnd/class of the window to check."),
      ("$text", "[optional] The text of the window to check."),
      ("$timeout", "[optional] Timeout in seconds.")]
    label := some "WinWaitActive($title[, $text = \"\"[, $timeout = 0]])" },
  { name := "_ArrayAdd"
    doc := "Adds a specified value at the end of an existing 1D or 2D array."
    params := [("$aArray", "Array to modify."),
      ("$vValue", "Value(s) to add."),
      ("$iStart", "[optional] Column in which to start adding. Default is 0."),
      ("$sDelim_Item", "[optional] Delimiter used to split items. Default is \"|\"."),
      ("$sDelim_Row", "[optional] Delimiter used to split rows. Default is @CRLF."),
      ("$iForce", "[optional] How to treat $vValue. Default is 0.")]
    library := some "Array"
    label := some ("_ArrayAdd(ByRef $aArray, $vValue[, $iStart = 0[, $sDelim_Item = \"|\"[, " ++
      "$sDelim_Row = @CRLF[, $iForce = 0]]]])") },
  { name := "_ArrayDelete"
    doc := "Deletes specified element(s) from an array."
    params := [("$aArray", "Array to modify."),
      ("$vRange", "Index or range of elements to delete.")]
    library := some "Array"
    label := some "_ArrayDelete(ByRef $aArray, $vRange)" },
  { name := "_ArrayDisplay"
    doc := "Displays a 1D or 2D array in a ListView."
    params := [("$aArray", "Array to display."),
      ("$sTitle", "[optional] Title for the dialog. Default is \"ArrayDisplay\"."),
      ("$sArrayRange", "[optional] Range of rows and columns to display. Default is all."),
      ("$iFlags", "[optional] Display options. Default is 0."),
      ("$vUser_Separator", "[optional] Separator used when copying data. Default is Default."),
      ("$sHeader", "[optional] Column headers. Default is Default.")]
    library := some "Array"
    label := some ("_ArrayDisplay(Const ByRef $aArray[, $sTitle = \"ArrayDisplay\"[, " ++
      "$sArrayRange = \"\"[, $iFlags = 0[, $vUser_Separator = Default[, " ++
      "$sHeader = Default]]]]])") },
  { name := "_ArraySearch"
    doc := "Finds an entry within a 1D or 2D array."
    params := [("$aArray", "Array to search."),
      ("$vValue", "Value to search for."),
      ("$iStart", "[optional] Index of the array to start searching at. Default is 0."),
      ("$iEnd", "[optional] Index of the array to stop searching at. Default is 0 (last element)."),
      ("$iCase", "[optional] If set to 1, the search is case-sensitive. Default is 0."),
      ("$iCompare", "[optional] Comparison mode. Default is 0."),
      ("$iForward",
        "[optional] If set to 0, searches the array from end to beginning. Default is 1."),
      ("$iSubItem", "[optional] Column to search in for 2D arrays. Default is -1.")]
    library := some "Array"
    label := some ("_ArraySearch(Const ByRef $aArray, $vValue[, $iStart = 0[, $iEnd = 0[, " ++
      "$iCase = 0[, $iCompare = 0[, $iForward = 1[, $iSubItem = -1]]]]]])") },
  { name := "_ArraySort"
    doc := "Sorts a 1D or 2D array on a specific index using the quicksort/insertionsort " ++
      "algorithms."
    params := [("$aArray", "Array to sort."),
      ("$iDescending", "[optional] If set to 1, sort in descending order. Default is 0."),
      ("$iStart", "[optional] Index of the array to start sorting at. Default is 0."),
      ("$iEnd", "[optional] Index of the array to stop sorting at. Default is 0 (last element)."),
      ("$iSubItem", "[optional] Column to sort on for 2D arrays. Default is 0."),
      ("$iPivot", "[optional] Use the dual-pivot algorithm. Default is 0.")]
    library := some "Array"
    label := some ("_ArraySort(ByRef $aArray[, $iDescending = 0[, $iStart = 0[, $iEnd = 0[, " ++
      "$iSubItem = 0[, $iPivot = 0]]]]])") },
  { name := "_ArrayToString"
    doc := "Places the elements of a 1D or 2D array into a single string, separated by the " ++
      "specified delimiters."
    params := [("$aArray", "Array to combine."),
      ("$sDelim_Col", "[optional] Delimiter between columns. Default is \"|\"."),
      ("$iStart_Row", "[optional] First row to include. Default is -1."),
      ("$iEnd_Row", "[optional] Last row to include. Default is -1."),
      ("$sDelim_Row", "[optional] Delimiter between rows. Default is @CRLF."),
      ("$iStart_Col", "[optional] First column to include. Default is -1."),
      ("$iEnd_Col", "[optional] Last column to include. Default is -1.")]
    library := some "Array"
    label := some ("_ArrayToString(Const ByRef $aArray[, $sDelim_Col = \"|\"[, " ++
      "$iStart_Row = -1[, $iEnd_Row = -1[, $sDelim_Row = @CRLF[, $iStart_Col = -1[, " ++
      "$iEnd_Col = -1]]]]]])") },
  { name := "_DateAdd"
    doc := "Calculates a new date/time by adding/subtracting a specified number of time " ++
      "intervals from an initial date/time."
    params := [("$sType", "Time interval to add: D, M, Y, w, h, n or s."),
      ("$iNumber", "Number of intervals to add; negative subtracts."),
      ("$sDate", "Input date in the format \"YYYY/MM/DD[ HH:MM:SS]\".")]
    library := some "Date"
    label := some "_DateAdd($sType, $iNumber, $sDate)" },
  { name := "_DateDiff"
    doc := "Returns the difference between two dates in the specified format."
    params := [("$sType", "Format of the difference: D, M, Y, w, h, n or s."),
      ("$sStartDate", "Start date in the format \"YYYY/MM/DD[ HH:MM:SS]\"."),
      ("$sEndDate", "End date in the format \"YYYY/MM/DD[ HH:MM:SS]\".")]
    library := some "Date"
    label := some "_DateDiff($sType, $sStartDate, $sEndDate)" },
  { name := "_DateIsValid"
    doc := "Checks the given date to determine if it is a valid date."
    params := [("$sDate", "Date to check, in the format \"YYYY/MM/DD[ HH:MM:SS]\".")]
    library := some "Date"
    label := some "_DateIsValid($sDate)" },
  { name := "_NowCalc"
    doc := "Returns the current date and time in the format YYYY/MM/DD HH:MM:SS for use in date " ++
      "calculations."
    library := some "Date"
    label := some "_NowCalc()" },
  { name := "_NowDate"
    doc := "Returns the current date in the PC's short date format."
    library := some "Date"
    label := some "_NowDate()" },
  { name := "_FileCountLines"
    doc := "Returns the number of lines in the specified file."
    params := [("$sFilePath", "Path and filename of the file to be read.")]
    library := some "File"
    label := some "_FileCountLines($sFilePath)" },
  { name := "_FileListToArray"
    doc := "Lists files and/or folders in a specified folder."
    params := [("$sFilePath", "Folder to generate the list for."),
      ("$sFilter", "[optional] Filter to use. Default is \"*\"."),
      ("$iFlag", "[optional] Return files, folders or both. Default is 0 (both)."),
      ("$bReturnPath", "[optional] If True, the full path is returned. Default is False.")]
    library := some "File"
    label := some ("_FileListToArray($sFilePath[, $sFilter = \"*\"[, $iFlag = 0[, " ++
      "$bReturnPath = False]]])") },
  { name := "_FileReadToArray"
    doc := "Reads the specified file into a 1D or 2D array."
    params := [("$sFilePath", "Path and filename of the file to be read."),
      ("$aArray", "Variable to hold the returned data."),
      ("$iFlags", "[optional] Add a count to element 0 and other options. Default is 1."),
      ("$sDelimiter", "[optional] Delimiter for a 2D array. Default is \"\".")]
    library := some "File"
    label := some ("_FileReadToArray($sFilePath, ByRef $aArray[, $iFlags = 1[, " ++
      "$sDelimiter = \"\"]])") },
  { name := "_FileWriteFromArray"
    doc := "Writes an array to a specified file."
    params := [("$sFilePath", "Path of the file to write, or a file handle."),
      ("$aArray", "Array to be saved."),
      ("$iBase", "[optional] Start array index to read. Default is -1."),
      ("$iUBound", "[optional] End array index to read. Default is -1."),
      ("$sDelimiter", "[optional] Delimiter for a 2D array. Default is \"|\".")]
    library := some "File"
    label := some ("_FileWriteFromArray($sFilePath, Const ByRef $aArray[, $iBase = Default[, " ++
      "$iUBound = Default[, $sDelimiter = \"|\"]]])") },
  { name := "_PathSplit"
    doc := "Splits a path into the drive, directory, file name and file extension parts."
    params := [("$sFilePath", "Path to split."),
      ("$sDrive", "Variable to hold the drive."),
      ("$sDir", "Variable to hold the directory."),
      ("$sFileName", "Variable to hold the file name."),
      ("$sExtension", "Variable to hold the extension.")]
    library := some "File"
    label := some ("_PathSplit($sFilePath, ByRef $sDrive, ByRef $sDir, ByRef $sFileName, " ++
      "ByRef $sExtension)") },
  { name := "_Max"
    doc := "Evaluates which of the two numbers is higher."
    params := [("$iNum1", "First number."),
      ("$iNum2", "Second number.")]
    library := some "Math"
    label := some "_Max($iNum1, $iNum2)" },
  { name := "_Min"
    doc := "Evaluates which of the two numbers is lower."
    params := [("$iNum1", "First number."),
      ("$iNum2", "Second number.")]
    library := some "Math"
    label := some "_Min($iNum1, $iNum2)" },
  { name := "_Radian"
    doc := "Converts degrees to radians."
    params := [("$iDegrees", "Degrees to convert.")]
    library := some "Math"
    label := some "_Radian($iDegrees)" },
  { name := "_Degree"
    doc := "Converts radians to degrees."
    params := [("$iRadians", "Radians to convert.")]
    library := some "Math"
    label := some "_Degree($iRadians)" },
  { name := "_IsPressed"
    doc := "Checks if a key has been pressed."
    params := [("$sHexKey", "Key to check for, as a hex string."),
      ("$vDLL", "[optional] Handle to user32.dll. Default opens it.")]
    library := some "Misc"
    label := some "_IsPressed($sHexKey[, $vDLL = \"user32.dll\"])" },
  { name := "_Singleton"
    doc := "Enforces a design paradigm where only one instance of the script may be running."
    params := [("$sOccurrenceName", "String to identify the occurrence of the script."),
      ("$iFlag", "[optional] Behavior when a second instance starts. Default is 0.")]
    library := some "Misc"
    label := some "_Singleton($sOccurrenceName[, $iFlag = 0])" },
  { name := "_StringBetween"
    doc := "Find strings between two string delimiters."
    params := [("$sString", "String to evaluate."),
      ("$sStart", "Start of the string to find."),
      ("$sEnd", "End of the string to find."),
      ("$iMode", "[optional] Search mode. Default is 1."),
      ("$bCase", "[optional] If True, the search is case-sensitive. Default is False.")]
    library := some "String"
    label := some "_StringBetween($sString, $sStart, $sEnd[, $iMode = 1[, $bCase = False]])" },
  { name := "_StringExplode"
    doc := "Splits up a string into substrings depending on the given delimiters, as PHP's " ++
      "explode does."
    params := [("$sString", "String to be split."),
      ("$sDelimiter", "Delimiter to split on."),
      ("$iLimit", "[optional] Maximum elements to return. Default is 0 (no limit).")]
    library := some "String"
    label := some "_StringExplode($sString, $sDelimiter[, $iLimit = 0])" },
  { name := "_StringRepeat"
    doc := "Repeats a string a specified number of times."
    params := [("$sString", "String to repeat."),
      ("$iRepeatCount", "Number of times to repeat the string.")]
    library := some "String"
    label := some "_StringRepeat($sString, $iRepeatCount)" },
  { name := "_StringReverse"
    doc := "Reverses the contents of the specified string."
    params := [("$sString", "String to reverse.")]
    library := some "String"
    label := some "_StringReverse($sString)" }]

/-- The macros with what they hold. -/
def macroDocs : List (String × String) := [
  ("@AppDataDir", "Path to current user's Roaming Application Data."),
  ("@ComputerName", "Computer's network name."),
  ("@CR", "Carriage return, Chr(13)."),
  ("@CRLF", "= @CR & @LF. Occasionally used for line breaks."),
  ("@DesktopDir", "Path to current user's Desktop."),
  ("@error", "Status of the error flag. See the SetError() function."),
  ("@extended", "Extended function return, used in certain functions such as StringReplace()."),
  ("@HOUR", "Hours value of clock in 24-hour format. Range is 00 to 23."),
  ("@LF", "Line feed, Chr(10). Typically used for line breaks."),
  ("@MDAY", "Current day of month. Range is 01 to 31."),
  ("@MIN", "Minutes value of clock. Range is 00 to 59."),
  ("@MON", "Current month. Range is 01 to 12."),
  ("@OSVersion", "Returns one of the following: \"WIN_11\", \"WIN_10\", \"WIN_81\", \"WIN_8\"..."),
  ("@ScriptDir", "Directory containing the running script. Does not contain a trailing backslash."),
  ("@ScriptFullPath", "Equivalent to @ScriptDir & \"\\\" & @ScriptName."),
  ("@ScriptLineNumber", "Line number being executed."),
  ("@ScriptName", "Filename of the running script."),
  ("@SEC", "Seconds value of clock. Range is 00 to 59."),
  ("@SW_HIDE", "Hides the window and activates another window."),
  ("@SW_SHOW", "Activates the window and displays it in its current size and position."),
  ("@TAB", "Tab character, Chr(9)."),
  ("@TempDir", "Path to the temporary files folder."),
  ("@UserName", "ID of the currently logged on user."),
  ("@WindowsDir", "Path to the Windows folder."),
  ("@WorkingDir", "Current/active working directory. Does not contain a trailing backslash."),
  ("@YEAR", "Current four-digit year.")]

/-- The keywords. -/
def keywords : List String := [
  "And", "ByRef", "Case", "Const", "ContinueCase", "ContinueLoop", "Default", "Dim",
  "Do", "Else", "ElseIf", "EndFunc", "EndIf", "EndSelect", "EndSwitch", "EndWith",
  "Enum", "Exit", "ExitLoop", "False", "For", "Func", "Global", "If",
  "In", "Local", "Next", "Not", "Null", "Or", "ReDim", "Return",
  "Select", "Static", "Step", "Switch", "Then", "To", "True", "Until",
  "Volatile", "WEnd", "While", "With"]

end Catalogue

end AutoItServer
